import Errand.Proofs.Session.Agreement
import Errand.Proofs.Session.DepthFirst
import Errand.Proofs.Session.Shortage

/-! # Numbers taken from the seed

A session takes six numbers when it starts, and later one whenever a name, a location or an object
without a type settles on one of its choices. The moments of a call are its resolutions, one after
the other, each with the session as it is then. So the seed tells how many of them have settled in
that way, whether they then got anything or not.
-/

namespace Errand

/-- A general kind, which settles on a narrower one. -/
def Kind.isGeneral : Kind → Bool
  | .name | .location | .object => true
  | _ => false

theorem Kind.isGeneral_iff {k : Kind} : k.isGeneral = true ↔ k.options ≠ [] := by
  cases k <;> simp [isGeneral, options]

theorem Kind.collection?_of_isGeneral {k : Kind} (h : k.isGeneral = true) :
    ∃ c, k.collection? = some c := by
  cases k <;> simp [isGeneral] at h <;> exact ⟨_, rfl⟩

/-- The wildcard takes a number: it is a name, a location or an object without a type, and it shares
its entry with no other or is the first of its key. -/
def Moment.takesNumber (m : Moment) : Bool :=
  m.wildcard.type.isNone && m.wildcard.kind?.any Kind.isGeneral &&
    (m.wildcard.isInstance || (m.session.slot? m.wildcard.keycode).isNone)

namespace Session

/-! ## One resolution -/

theorem takesNumber_of_asks {w : Wildcard} {k : Kind} {c : Collection} (asks : w.Asks k c)
    (s : Session) : (Moment.mk w s).takesNumber = true ↔
      (w.type = none ∧ k.options ≠ []) ∧ sharedSlot? w s = none := by
  unfold Moment.takesNumber
  rw [asks.1, sharedSlot?_eq_none, ← Kind.isGeneral_iff]
  simp

theorem not_takesNumber_of_quiet {w : Wildcard} (asksNothing : ∀ k c, ¬ w.Asks k c) (s : Session) :
    (Moment.mk w s).takesNumber = false := by
  rw [Bool.eq_false_iff]
  intro h
  simp only [Moment.takesNumber, Bool.and_eq_true, Option.any_eq_true] at h
  obtain ⟨⟨_, k, hk, hgeneral⟩, _⟩ := h
  obtain ⟨c, hc⟩ := Kind.collection?_of_isGeneral hgeneral
  exact asksNothing k c ⟨hk, hc⟩

theorem dice_resolve (w : Wildcard) (s : Session) :
    (resolve w s).session.dice =
      ⟨s.dice.seed + if (Moment.mk w s).takesNumber then 1 else 0⟩ := by
  have hsettled {k kind : Kind} {c : Collection} {dice : Dice} (asks : w.Asks k c)
      (absent : sharedSlot? w s = none) (settled : settle w k s.dice = (kind, dice)) :
      dice = ⟨s.dice.seed + if (Moment.mk w s).takesNumber then 1 else 0⟩ := by
    have hdice := dice_of_settle w k s.dice
    rw [settled] at hdice
    dsimp only at hdice
    rw [hdice]
    simp [takesNumber_of_asks asks, absent]
  have hstep := step_resolve w s
  generalize resolve w s = r at hstep ⊢
  cases hstep with
  | quiet asksNothing => simp [not_takesNumber_of_quiet asksNothing]
  | shared asks found =>
      simp [takesNumber_of_asks asks, found]
      rfl
  | @drew _ kind c dice e rest asks absent settled =>
      rw [← hsettled asks absent settled]
      exact dice_drawn w kind c dice e rest s
  | short asks absent settled => exact hsettled asks absent settled

/-! ## One after the other -/

/-- Each moment finds what the one before it has left. -/
def Chained : Supply → List Moment → Supply → Prop
  | u, [], v => u = v
  | u, m :: ms, v => m.session.supply = u ∧
      Chained (resolve m.wildcard m.session).session.supply ms v

theorem Chained.append {u v x : Supply} {ms ns : List Moment} (h : Chained u ms v)
    (hnext : Chained v ns x) : Chained u (ms ++ ns) x := by
  induction ms generalizing u with
  | nil =>
      obtain rfl : u = v := h
      exact hnext
  | cons m ms ih => exact ⟨h.1, ih h.2⟩

/-- From one end of a chain to the other the seed grows by the numbers taken. -/
theorem Chained.seed {u v : Supply} {ms : List Moment} (h : Chained u ms v) :
    v.dice.seed = u.dice.seed + ms.countP Moment.takesNumber := by
  induction ms generalizing u with
  | nil =>
      obtain rfl : u = v := h
      simp
  | cons m ms ih =>
      obtain ⟨rfl, hrest⟩ := h
      have hdice := congrArg Dice.seed (dice_resolve m.wildcard m.session)
      rw [ih hrest, List.countP_cons]
      change (resolve m.wildcard m.session).session.dice.seed + _ = m.session.dice.seed + _
      rw [hdice]
      cases (Moment.mk m.wildcard m.session).takesNumber with
      | false => simp
      | true =>
          simp only [if_true, Int.natCast_add, Int.cast_ofNat_Int]
          omega

end Session

/-- The moments of a run: they lead from what the session could give before it to what it can give
after it, and they are the resolutions of these wildcards in this order, up to the failure if the
run fails. -/
structure Run.Account {α : Type} (ws : List Wildcard) (s : Session) (run : Run α)
    (ms : List Moment) : Prop where
  chained : Session.Chained s.supply ms run.2.supply
  met : ms.map Moment.wildcard <+: ws
  all : ∀ a, run.1 = .ok a → ms.map Moment.wildcard = ws

namespace Run.Account

variable {α β : Type} {ws vs : List Wildcard} {s t : Session} {run : Run α} {ms : List Moment}

theorem done {a : α} (h : s.supply = t.supply) : Account [] s (.ok a, t) [] :=
  ⟨h, List.prefix_rfl, fun _ _ => rfl⟩

theorem failed {e : Failure} (h : s.supply = t.supply) :
    Account ws s ((.error e, t) : Run α) [] :=
  ⟨h, List.nil_prefix, fun _ h => nomatch h⟩

theorem bind {f : α → Session → Run β} {next : α → Session → List Moment}
    (h : Account ws s run ms) (hnext : ∀ a t, Account vs t (f a t) (next a t)) :
    Account (ws ++ vs) s (run.bind f) (ms ++ run.further next) := by
  rcases run with ⟨e | a, t⟩
  · rw [Run.further, List.append_nil]
    exact ⟨h.chained, h.met.trans (List.prefix_append _ _), fun _ h => nomatch h⟩
  · obtain ⟨hchained, hmet, hall⟩ := hnext a t
    have hms := h.all a rfl
    refine ⟨h.chained.append hchained, ?_, fun b hb => ?_⟩
    · rw [List.map_append, hms]
      exact (List.prefix_append_right_inj ws).mpr hmet
    · rw [List.map_append, hms]
      exact congrArg (ws ++ ·) (hall b hb)

theorem rule : Run.Rule fun ws run ms => ∀ s, Account ws s (run s) (ms s) where
  done _ _ := .done rfl
  failed _ _ _ := .failed rfl
  noted _ _ _ := .done rfl
  resolve _ _ := ⟨⟨rfl, rfl⟩, List.prefix_rfl, fun _ _ => rfl⟩
  bind hrun hnext s := (hrun s).bind hnext

end Run.Account

namespace Session

/-! ## The moments of a call -/

def momentsOf (s : Session) : Call → List Moment
  | .task prototype =>
    match Text.wildcards? prototype with
    | none => []
    | some _ =>
      momentsOfPieces (Piece.ofSegments (Text.segments prototype)) 0 (s.opened prototype)
  | .nested t depth collect =>
    match (depthLimit - depth).toNat with
    | 0 => []
    | levels + 1 =>
      if collect then
        momentsOfSegments (metadataReader levels) (momentsOfMetadata levels) (Text.segments t) s
      else momentsOfSegments noLines (fun _ _ => []) (Text.segments t) s
  | .resolve w => [{ wildcard := w, session := s }]

def momentsAfter (s : Session) : List Call → List Moment
  | [] => []
  | call :: calls => s.momentsOf call ++ (s.afterCall call).momentsAfter calls

end Session

/-- The wildcards that a call may come to, in this order. -/
def Call.wildcards : Call → List Wildcard
  | .task prototype => (Session.itinerary prototype).map Session.Stop.wildcard
  | .nested t depth collect =>
    let levels := (Session.depthLimit - depth).toNat
    (Session.stopsWithin (if collect then levels else min levels 1) [] t).map Session.Stop.wildcard
  | .resolve w => [w]

namespace Session

def fulfils (s : Session) : Call → Bool
  | .task prototype => (s.task prototype).1.isOk
  | .nested t depth collect => (s.replaceNested t depth collect).1.isOk
  | .resolve w => (resolve w s).run.1.isOk

theorem account_task (prototype : Text) (s : Session) :
    Run.Account (Call.task prototype).wildcards s (s.task prototype)
      (s.momentsOf (.task prototype)) := by
  by_cases hsized : .oversized ∈ Text.segments prototype
  · rw [task_of_oversized hsized]
    have hnone : Text.wildcards? prototype = none := by simp [Text.wildcards?, hsized]
    rw [momentsOf, hnone]
    exact .failed rfl
  · have hsome := Text.wildcards?_eq_some hsized
    have hat (k : Nat) (w : Wildcard) (s : Session) : Run.Account [w] s (resolveAt k w s).run
        [{ wildcard := w, session := { s with current := k } }] :=
      ⟨⟨rfl, rfl⟩, List.prefix_rfl, fun _ _ => rfl⟩
    have hwork := Run.Account.rule.work hat (Piece.ofSegments (Text.segments prototype)) 0
    have hmade := Run.Account.rule.map hwork Task.mk (s.opened prototype)
    rw [Piece.filterMap_ofSegments hsized] at hmade
    rw [momentsOf, Call.wildcards, task_eq hsome, hsome, itinerary, map_wildcard_stopsWithin]
    exact ⟨hmade.chained, hmade.met, hmade.all⟩

theorem account_replaceNested (t : Text) (depth : Int) (collect : Bool) (s : Session) :
    Run.Account (Call.nested t depth collect).wildcards s (s.replaceNested t depth collect)
      (s.momentsOf (.nested t depth collect)) := by
  unfold momentsOf Call.wildcards replaceNested
  simp only [map_wildcard_stopsWithin]
  cases (depthLimit - depth).toNat with
  | zero => cases collect <;> exact .done rfl
  | succ levels =>
      cases collect with
      | true =>
          exact Run.Account.rule.replaceText _ _ (Text.wildcardsWithin_nil levels)
            (Run.Account.rule.metadataReader levels) t s
      | false =>
          have hone : min (levels + 1) 1 = 1 := by omega
          have hsilent : ∀ (t : Text) (s : Session), Run.Account [] s (noLines t s) [] :=
            fun _ _ => .done rfl
          dsimp only
          rw [if_neg (by simp), hone]
          exact Run.Account.rule.replaceText (fun _ => []) (fun _ _ => []) rfl hsilent t s

theorem account_call (s : Session) (call : Call) :
    Chained s.supply (s.momentsOf call) (s.afterCall call).supply ∧
      (s.momentsOf call).map Moment.wildcard <+: call.wildcards ∧
        (s.fulfils call = true → (s.momentsOf call).map Moment.wildcard = call.wildcards) := by
  have hparts {α : Type} {ws : List Wildcard} {run : Run α} {ms : List Moment}
      (h : run.Account ws s ms) : Chained s.supply ms run.2.supply ∧
        ms.map Moment.wildcard <+: ws ∧ (run.1.isOk = true → ms.map Moment.wildcard = ws) := by
    refine ⟨h.chained, h.met, fun hok => ?_⟩
    rcases run with ⟨e | a, t⟩
    · cases hok
    · exact h.all a rfl
  cases call with
  | task prototype => exact hparts (account_task prototype s)
  | nested t depth collect => exact hparts (account_replaceNested t depth collect s)
  | resolve w => exact hparts (Run.Account.rule.resolve w s)

theorem chained_after (s : Session) (calls : List Call) :
    Chained s.supply (s.momentsAfter calls) (s.after calls).supply := by
  induction calls generalizing s with
  | nil => exact rfl
  | cons call calls ih => exact (account_call s call).1.append (ih (s.afterCall call))

/-- Each of the six pools is shuffled by a number of its own. -/
theorem dice_start (c : Catalog) (dice : Dice) (tier : Tier) :
    (start c dice tier).dice = ⟨dice.seed + 6⟩ := by
  have hsix : (start c dice tier).dice = dice.next.next.next.next.next.next := rfl
  rw [hsix]
  simp only [Dice.next, Int.add_assoc]
  rfl

/-- The seed of a session is the one it was given, and six, and the number of its resolutions of
names, locations and objects without a type that shared no entry then, those that found nothing
included. The moments of a session lead from its start to where it is. Those of a call are the
resolutions of its wildcards in their order: of those of its text, and of metadata down to the depth
limit if that is read; all of them, unless the call fails. Any other resolution leaves the seed as it
is. -/
theorem seed_after (c : Catalog) (dice : Dice) (tier : Tier) (calls : List Call) :
    let first := start c dice tier
    (first.after calls).dice.seed =
        dice.seed + 6 + (first.momentsAfter calls).countP Moment.takesNumber ∧
      Chained first.supply (first.momentsAfter calls) (first.after calls).supply ∧
      (∀ (s : Session) (call : Call), (s.momentsOf call).map Moment.wildcard <+: call.wildcards ∧
        (s.fulfils call = true → (s.momentsOf call).map Moment.wildcard = call.wildcards)) ∧
      ∀ w s, (resolve w s).session.dice.seed =
        s.dice.seed + if (Moment.mk w s).takesNumber then 1 else 0 := by
  intro first
  have hchained := chained_after first calls
  have hseed := hchained.seed
  refine ⟨?_, hchained, fun s call => (account_call s call).2, fun w s => ?_⟩
  · change (first.after calls).dice.seed = first.dice.seed + _ at hseed
    rw [hseed, dice_start]
  · rw [dice_resolve]

end Session

end Errand
