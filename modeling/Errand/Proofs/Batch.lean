import Errand.Session.Work

/-! # Batches by their seeds

A batch serves one number for each of its tasks. The number seeds the session of the task, whose first
draw picks the prototype, and nothing else goes from the batch into the task. So a batch can be cut
anywhere: the tasks behind the cut are the batch that starts as many numbers later.
-/

namespace Errand

/-! ## Picking a prototype -/

namespace PrototypeList

variable {W : Type} [Weight W]

@[simp] theorem length_totalsAfter (total : W) (weights : List W) :
    (totalsAfter total weights).length = weights.length := by
  induction weights generalizing total with
  | nil => rfl
  | cons w weights ih => simp [totalsAfter, ih]

@[simp] theorem length_totals (weights : List W) : (totals weights).length = weights.length := by
  cases weights <;> simp [totals]

variable {weights : List W}

theorem placeOf_lt (hne : weights ≠ []) (x : W) : placeOf (totals weights) x < weights.length := by
  have hpos := List.length_pos_iff.mpr hne
  unfold placeOf
  rw [length_totals]
  omega

/-- A choice among weights takes one draw, whichever way it is made, and ends at one of them. -/
theorem chooseIndex_spec (hne : weights ≠ []) (dice : Dice) :
    (chooseIndex weights dice).1 < weights.length ∧ (chooseIndex weights dice).2 = dice.next := by
  unfold chooseIndex
  cases hsum : (totals weights).getLast? with
  | none =>
      have hnil : (totals weights).length = 0 := by
        rw [List.getLast?_eq_none_iff.mp hsum]
        rfl
      rw [length_totals, List.length_eq_zero_iff] at hnil
      exact absurd hnil hne
  | some sum =>
      dsimp only
      by_cases hzero : sum ≤ 0
      · rw [if_pos hzero]
        exact ⟨Dice.below_lt (List.length_pos_iff.mpr hne) dice, rfl⟩
      · rw [if_neg hzero]
        exact ⟨placeOf_lt hne _, rfl⟩

theorem length_weights_ofLines (ls : List Text) :
    (ofLines ls : PrototypeList W).weights.length = (ofLines ls : PrototypeList W).items.length := by
  simp [ofLines]

theorem items_ofLines_eq_nil_iff (ls : List Text) :
    (ofLines ls : PrototypeList W).items = [] ↔ ∀ line ∈ ls, Prototype.ofLine? line = none := by
  simp [ofLines, Prototype.ofLines]

end PrototypeList

namespace PrototypeSource

variable {W : Type} [Weight W] {source : PrototypeSource W} {ls : List Text}

theorem choose_of_unusable (hempty : source.list.items = []) (dice : Dice) :
    source.choose dice = (.nothing, dice) := by
  simp [choose, hempty]

theorem choose_at (hlines : source.list = .ofLines ls) (husable : source.list.items ≠ [])
    (dice : Dice) :
    ∃ h : (PrototypeList.chooseIndex source.list.weights dice).1 < source.list.items.length,
      source.choose dice =
        (.prototype source.list.items[(PrototypeList.chooseIndex source.list.weights dice).1],
          dice.next) := by
  have hlength : source.list.weights.length = source.list.items.length := by
    rw [hlines]
    exact PrototypeList.length_weights_ofLines ls
  have hne : source.list.weights ≠ [] := by
    intro hnil
    rw [hnil] at hlength
    exact husable (List.eq_nil_of_length_eq_zero hlength.symm)
  obtain ⟨hlt, hnext⟩ := PrototypeList.chooseIndex_spec hne dice
  rw [hlength] at hlt
  refine ⟨hlt, ?_⟩
  unfold choose
  dsimp only
  rw [if_neg (by simpa using husable), List.getElem?_eq_getElem hlt]
  dsimp only
  rw [hnext]

theorem choose_of_usable (hlines : source.list = .ofLines ls) (husable : source.list.items ≠ [])
    (dice : Dice) : ∃ q, source.choose dice = (.prototype q, dice.next) := by
  obtain ⟨_, hchosen⟩ := choose_at hlines husable dice
  exact ⟨_, hchosen⟩

theorem mem_items_of_choose {dice after : Dice} {q : Text}
    (h : source.choose dice = (.prototype q, after)) : q ∈ source.list.items := by
  unfold choose at h
  dsimp only at h
  split at h
  · cases h
  · split at h
    · next t hfound =>
        cases h
        exact List.mem_of_getElem? hfound
    · cases h

end PrototypeSource

/-! ## One task of a batch -/

variable {W : Type} [Weight W]

/-- What one number of a batch comes to: it seeds a session, the first draw of the session picks a
prototype, and the task is the one of that prototype alone, from the next seed on. -/
def Turn (source : PrototypeSource W) (c : Catalog) (tier : Tier) (batch : Dice)
    (result : Except Failure Task) : Prop :=
  ∃ q, source.choose ⟨(batch.bits 64).1⟩ = (.prototype q, ⟨(batch.bits 64).1 + 1⟩) ∧
    (generateTask q c ⟨(batch.bits 64).1 + 1⟩ tier).1 = result

variable {source : PrototypeSource W} {ls : List Text} {c : Catalog} {tier : Tier}

theorem generateTasks_of_unusable (hempty : source.list.items = []) (n : Nat) (batch : Dice) :
    (generateTasks source c tier n batch).1 = .ok [] := by
  cases n with
  | zero => rfl
  | succ n =>
      unfold generateTasks
      dsimp only
      rw [PrototypeSource.choose_of_unusable hempty]

theorem generateTasks_succ (hlines : source.list = .ofLines ls) (husable : source.list.items ≠ [])
    (batch : Dice) : ∃ result, Turn source c tier batch result ∧
      ∀ n, (generateTasks source c tier (n + 1) batch).1 = (do
        let task ← result
        let tasks ← (generateTasks source c tier n batch.next).1
        return task :: tasks) := by
  obtain ⟨q, hq⟩ := PrototypeSource.choose_of_usable hlines husable ⟨(batch.bits 64).1⟩
  refine ⟨_, ⟨q, hq, rfl⟩, fun n => ?_⟩
  have hbatch : (batch.bits 64).2 = batch.next := rfl
  rw [generateTasks]
  dsimp only
  rw [hq, hbatch]
  dsimp only [Dice.next]
  rcases generateTask q c ⟨(batch.bits 64).1 + 1⟩ tier with ⟨_ | task, notices⟩
  · rfl
  · rcases generateTasks source c tier n ⟨batch.seed + 1⟩ with ⟨_ | tasks, later⟩ <;> rfl

/-! ## A whole batch -/

/-- A batch can be cut anywhere. -/
theorem generateTasks_add (hlines : source.list = .ofLines ls) (n m : Nat) (s : Int) :
    (generateTasks source c tier (n + m) ⟨s⟩).1 = (do
      let first ← (generateTasks source c tier n ⟨s⟩).1
      let second ← (generateTasks source c tier m ⟨s + n⟩).1
      return first ++ second) := by
  by_cases hempty : source.list.items = []
  · simp only [generateTasks_of_unusable hempty]
    rfl
  · induction n generalizing s with
    | zero =>
        rw [Nat.zero_add, Int.natCast_zero, Int.add_zero]
        cases (generateTasks source c tier m ⟨s⟩).1 <;> rfl
    | succ n ih =>
        obtain ⟨result, _, hstep⟩ := generateTasks_succ hlines hempty ⟨s⟩
        have hseed : s + 1 + n = s + (n + 1 : Nat) := by omega
        rw [Nat.add_right_comm, hstep, hstep, Dice.next, ih (s + 1), hseed]
        cases result with
        | error e => rfl
        | ok task =>
            cases (generateTasks source c tier n ⟨s + 1⟩).1 with
            | error e => rfl
            | ok first => cases (generateTasks source c tier m ⟨s + (n + 1 : Nat)⟩).1 <;> rfl

/-- A batch with a prototype to pick has as many tasks as were asked for, each from its own number, or
it fails with the failure of one of them, behind tasks that were made. -/
theorem generateTasks_turns (hlines : source.list = .ofLines ls) (husable : source.list.items ≠ [])
    (c : Catalog) (tier : Tier) (n : Nat) (s : Int) :
    match (generateTasks source c tier n ⟨s⟩).1 with
    | .ok tasks => tasks.length = n ∧
        ∀ k (hk : k < tasks.length), Turn source c tier ⟨s + k⟩ (.ok tasks[k])
    | .error e => ∃ k < n, Turn source c tier ⟨s + k⟩ (.error e) ∧
        ∀ j < k, ∃ task, Turn source c tier ⟨s + j⟩ (.ok task) := by
  induction n generalizing s with
  | zero => exact ⟨rfl, fun k hk => absurd hk (Nat.not_lt_zero k)⟩
  | succ n ih =>
      obtain ⟨result, hturn, hstep⟩ := generateTasks_succ hlines husable ⟨s⟩
      have hfirst : Turn source c tier ⟨s + (0 : Nat)⟩ result := by simpa using hturn
      have hseed (k : Nat) : s + 1 + k = s + (k + 1 : Nat) := by omega
      have hrest := ih (s + 1)
      rw [hstep, Dice.next]
      cases result with
      | error e => exact ⟨0, n.succ_pos, hfirst, fun j hj => absurd hj (Nat.not_lt_zero j)⟩
      | ok task =>
          generalize (generateTasks source c tier n ⟨s + 1⟩).1 = rest at hrest ⊢
          rcases rest with e | later
          · obtain ⟨k, hk, hfails, hmade⟩ := hrest
            refine ⟨k + 1, by omega, hseed k ▸ hfails, fun j hj => ?_⟩
            cases j with
            | zero => exact ⟨task, hfirst⟩
            | succ j => exact hseed j ▸ hmade j (by omega)
          · obtain ⟨hlength, hturns⟩ := hrest
            refine ⟨congrArg (· + 1) hlength, fun k hk => ?_⟩
            cases k with
            | zero => exact hfirst
            | succ k => exact hseed k ▸ hturns k (Nat.lt_of_succ_lt_succ hk)

theorem exists_prototype_of_mem (hlines : source.list = .ofLines ls) {n : Nat} {s : Int}
    {tasks : List Task} (h : (generateTasks source c tier n ⟨s⟩).1 = .ok tasks) :
    ∀ task ∈ tasks, ∃ q ∈ source.list.items, ∃ dice u,
      (Session.start c dice tier).task q = (.ok task, u) := by
  by_cases hempty : source.list.items = []
  · rw [generateTasks_of_unusable hempty] at h
    cases h
    exact fun task hmem => absurd hmem List.not_mem_nil
  · have hturns := generateTasks_turns hlines hempty c tier n s
    rw [h] at hturns
    intro task hmem
    obtain ⟨k, hk, rfl⟩ := List.mem_iff_getElem.mp hmem
    obtain ⟨q, hq, hmade⟩ := hturns.2 k hk
    exact ⟨q, PrototypeSource.mem_items_of_choose hq, _, _, Prod.ext hmade rfl⟩

theorem exists_tasks_of_single (hlines : source.list = .ofLines ls) {q : Text}
    (hitems : source.list.items = [q]) {P : Task → Prop}
    (hmade : ∀ dice, ∃ task, (generateTask q c dice tier).1 = .ok task ∧ P task) (n : Nat) (s : Int) :
    ∃ tasks, (generateTasks source c tier n ⟨s⟩).1 = .ok tasks ∧ tasks.length = n ∧
      ∀ task ∈ tasks, P task := by
  have hturn {batch : Dice} {result : Except Failure Task} (h : Turn source c tier batch result) :
      ∃ task, result = .ok task ∧ P task := by
    obtain ⟨p, hp, rfl⟩ := h
    have hmem := PrototypeSource.mem_items_of_choose hp
    rw [hitems, List.mem_singleton] at hmem
    rw [hmem]
    exact hmade _
  have hturns := generateTasks_turns hlines (by simp [hitems]) c tier n s
  cases hbatch : (generateTasks source c tier n ⟨s⟩).1 with
  | ok tasks =>
      rw [hbatch] at hturns
      refine ⟨tasks, rfl, hturns.1, fun task hmem => ?_⟩
      obtain ⟨k, hk, rfl⟩ := List.mem_iff_getElem.mp hmem
      obtain ⟨task, htask, hknown⟩ := hturn (hturns.2 k hk)
      exact Except.ok.inj htask ▸ hknown
  | error e =>
      rw [hbatch] at hturns
      obtain ⟨k, _, hfails, _⟩ := hturns
      obtain ⟨_, htask, _⟩ := hturn hfails
      cases htask

/-- For prototypes from lines, be they typed, given one by one or parsed before: a batch is the batch of
its first tasks and behind it the batch that starts as many numbers later; where one of the two fails,
the failure is that of the first that does. A batch is empty only if no task is asked for or no line
holds a prototype, and else it has as many tasks as are asked for. Each task comes from its own number
alone, and so does the failure that ends a batch. -/
theorem generateTasks_by_seed (source : PrototypeSource W) (ls : List Text)
    (hlines : source.list = .ofLines ls) (c : Catalog) (tier : Tier) (s : Int) (n m : Nat) :
    (generateTasks source c tier (n + m) ⟨s⟩).1 = (do
      let first ← (generateTasks source c tier n ⟨s⟩).1
      let second ← (generateTasks source c tier m ⟨s + n⟩).1
      return first ++ second) ∧
    (∀ tasks, (generateTasks source c tier n ⟨s⟩).1 = .ok tasks →
      (tasks = [] ↔ n = 0 ∨ ∀ line ∈ ls, Prototype.ofLine? line = none) ∧
      (tasks ≠ [] → tasks.length = n) ∧
      ∀ k (hk : k < tasks.length), Turn source c tier ⟨s + k⟩ (.ok tasks[k])) ∧
    ∀ e, (generateTasks source c tier n ⟨s⟩).1 = .error e →
      ∃ k < n, Turn source c tier ⟨s + k⟩ (.error e) ∧
        ∀ j < k, ∃ task, Turn source c tier ⟨s + j⟩ (.ok task) := by
  have hitems := PrototypeList.items_ofLines_eq_nil_iff (W := W) ls
  rw [← hlines] at hitems
  refine ⟨generateTasks_add hlines n m s, ?_⟩
  by_cases hempty : source.list.items = []
  · rw [generateTasks_of_unusable hempty]
    refine ⟨fun tasks h => ?_, fun e h => by cases h⟩
    cases h
    simp [← hitems, hempty]
  · have hturns := generateTasks_turns hlines hempty c tier n s
    constructor
    · intro tasks h
      rw [h] at hturns
      obtain ⟨hlength, hmade⟩ := hturns
      refine ⟨?_, fun _ => hlength, hmade⟩
      rw [← hitems, ← List.length_eq_zero_iff, hlength]
      simp [hempty]
    · intro e h
      rw [h] at hturns
      exact hturns

/-- Three tasks, each of which draws the only gesture, are the first two and the one behind them. -/
theorem generateTasks_by_seed_single :
    let source : PrototypeSource Float := .text "# by turns\ngreet the one who is {gesture}".toList
    let c : Catalog := { Catalog.empty with gestures := [⟨.text "waving".toList, .easy⟩] }
    source.list = .ofLines (Text.typedLines "# by turns\ngreet the one who is {gesture}".toList) ∧
      ∃ first second, (generateTasks source c .easy 2 ⟨0⟩).1 = .ok first ∧
        (generateTasks source c .easy 1 ⟨2⟩).1 = .ok second ∧
        (generateTasks source c .easy (2 + 1) ⟨0⟩).1 = .ok (first ++ second) ∧
        first.length = 2 ∧ second.length = 1 ∧
        ∀ task ∈ first ++ second, task.text? = some "greet the one who is waving".toList := by
  intro source c
  have hlines : source.list =
      .ofLines (Text.typedLines "# by turns\ngreet the one who is {gesture}".toList) := rfl
  have hitems : source.list.items = ["greet the one who is {gesture}".toList] := by decide +kernel
  have hmade (dice : Dice) : ∃ task,
      (generateTask "greet the one who is {gesture}".toList c dice .easy).1 = .ok task ∧
        task.text? = some "greet the one who is waving".toList := ⟨_, rfl, rfl⟩
  obtain ⟨first, hfirst, _, htexts⟩ := exists_tasks_of_single hlines hitems hmade 2 0
  obtain ⟨second, hsecond, _, hlater⟩ := exists_tasks_of_single hlines hitems hmade 1 2
  have husable : ¬ ∀ line ∈ Text.typedLines "# by turns\ngreet the one who is {gesture}".toList,
      Prototype.ofLine? line = none := by decide +kernel
  have hne {n : Nat} {s : Int} {tasks : List Task} (hn : n ≠ 0)
      (h : (generateTasks source c .easy n ⟨s⟩).1 = .ok tasks) : tasks.length = n := by
    obtain ⟨hempty, hlength, _⟩ := (generateTasks_by_seed source _ hlines c .easy s n 0).2.1 tasks h
    exact hlength fun hnil => (hempty.mp hnil).elim hn husable
  have hwhole := (generateTasks_by_seed source _ hlines c .easy 0 2 1).1
  have hstart : (0 : Int) + (2 : Nat) = 2 := rfl
  rw [hfirst, hstart, hsecond] at hwhole
  refine ⟨hlines, first, second, hfirst, hsecond, hwhole, hne (by decide) hfirst,
    hne (by decide) hsecond, ?_⟩
  exact List.forall_mem_append.mpr ⟨htexts, hlater⟩

end Errand
