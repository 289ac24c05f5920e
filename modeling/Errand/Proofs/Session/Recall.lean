import Errand.Proofs.Session.Agreement
import Errand.Proofs.Session.DepthFirst
import Errand.Proofs.Session.Sharing

/-! # Tasks made again

A wildcard that shares its entry finds the slot of its key when it is resolved again. So a text
without fresh wildcards that was once made into a task becomes the same task ever after: nothing is
drawn for it any more, and the kinds that its pronouns refer to are those of the slots.
-/

namespace Errand

namespace Session

/-- Sessions at the same wildcard of the same text, with the same kinds noted. -/
structure SameText (s u : Session) : Prop where
  mentions : s.mentions = u.mentions
  current : s.current = u.current

/-- The slots of `t` are also slots of `u`. -/
def Remembers (t u : Session) : Prop :=
  ∀ key slot, t.slot? key = some slot → u.slot? key = some slot

theorem Remembers.of_moves {t t' u : Session} (h : Remembers t' u) (hmoves : Moves t t') :
    Remembers t u :=
  fun key slot hslot => h key slot (hmoves.slot?_stable hslot)

theorem Remembers.of_supply {t u v : Session} (h : Remembers t u) (hsupply : v.supply = u.supply) :
    Remembers t v := by
  intro key slot hslot
  have hslots : v.slots = u.slots := congrArg Supply.slots hsupply
  unfold slot?
  rw [hslots]
  exact h key slot hslot

end Session

open Session

/-- If the run has come to an end, a run that starts in a session `u` which remembers its draws comes
to the same end, and what `u` could give it can still give. -/
def Run.Repeated {α : Type} (same : Session → Session → Prop) (run : Run α) (u : Session)
    (again : Run α) : Prop :=
  ∀ a t, run = (.ok a, t) → Remembers t u →
    ∃ v, again = (.ok a, v) ∧ v.supply = u.supply ∧ same t v

namespace Run.Repeated

variable {α β : Type} {same sameNext : Session → Session → Prop} {x y : Run α} {u : Session}

theorem bind {f : α → Session → Run β} (h : Repeated same x u y)
    (hmoves : ∀ a t, Moves t (f a t).2)
    (hnext : ∀ a t v, same t v → Repeated sameNext (f a t) v (f a v)) :
    Repeated sameNext (x.bind f) u (y.bind f) := by
  intro b t₂ hrun hremembers
  obtain ⟨a, t₁, rfl, hf⟩ := Run.bind_eq_ok.mp hrun
  have hlater : Moves t₁ t₂ := by
    have h := hmoves a t₁
    rwa [hf] at h
  obtain ⟨v, rfl, hsupply, hsame⟩ := h a t₁ rfl (hremembers.of_moves hlater)
  obtain ⟨v₂, hagain, hsupplyNext, hsameNext⟩ :=
    hnext a t₁ v hsame b t₂ hf (hremembers.of_supply hsupply)
  exact ⟨v₂, hagain, hsupplyNext.trans hsupply, hsameNext⟩

theorem map (f : α → β) (h : Repeated same x u y) : Repeated same (x.map f) u (y.map f) := by
  intro b t hrun hremembers
  obtain ⟨a, rfl, rfl⟩ := Run.map_eq_ok.mp hrun
  obtain ⟨v, rfl, hsupply, hsame⟩ := h a t rfl hremembers
  exact ⟨v, rfl, hsupply, hsame⟩

theorem done {a : α} {s : Session} (h : same s u) : Repeated same (.ok a, s) u (.ok a, u) := by
  intro b t hrun _
  cases hrun
  exact ⟨u, rfl, rfl, h⟩

theorem failed {e : Failure} {s : Session} : Repeated same (.error e, s) u y := by
  intro b t hrun
  cases hrun

end Run.Repeated

namespace Session

/-! ## Resolving again -/

theorem slot?_serve {w : Wildcard} {k : Kind} {c : Collection} {s : Session}
    {element : Option Element} (asks : w.Asks k c) (hw : w.isInstance = false)
    (h : (serve w k c s).result = .ok element) :
    ∃ slot, (serve w k c s).session.slot? w.keycode = some slot ∧
      (serve w k c s).kind = some slot.kind ∧ element = some (.entry slot.entry) := by
  have hstep := step_serve asks s
  generalize serve w k c s = r at hstep h ⊢
  cases hstep with
  | quiet asksNothing => exact absurd asks (asksNothing k c)
  | shared _ found =>
      obtain ⟨_, hslot⟩ := sharedSlot?_eq_some found
      exact ⟨_, hslot, rfl, (Except.ok.inj h).symm⟩
  | @drew _ kind _ _ e _ _ absent =>
      have hnone := (sharedSlot?_eq_none.mp absent).resolve_left (by simp [hw])
      refine ⟨{ key := w.keycode, entry := e, kind }, ?_, rfl, (Except.ok.inj h).symm⟩
      rw [slot?_drawn, hnone]
      simp [hw]
  | short => cases h

/-- A wildcard that shares its entry gets the same again. -/
theorem resolve_again {w : Wildcard} {s u : Session} {element : Option Element}
    (hw : w.isInstance = false) (hsame : SameText s u)
    (hresult : (resolve w s).result = .ok element)
    (hremembers : Remembers (resolve w s).session u) :
    (resolve w u).kind = (resolve w s).kind ∧ (resolve w u).result = .ok element ∧
      (resolve w u).session.supply = u.supply := by
  unfold resolve at hresult hremembers ⊢
  by_cases hname : w.name.isEmpty = true
  · rw [if_pos hname] at hresult ⊢
    rw [if_pos hname]
    exact ⟨rfl, hresult, rfl⟩
  · rw [if_neg hname] at hresult hremembers ⊢
    rw [if_neg hname]
    cases hkind : w.kind? with
    | none =>
        simp only [hkind] at hresult ⊢
        exact ⟨trivial, hresult, trivial⟩
    | some k =>
        simp only [hkind] at hresult hremembers ⊢
        cases hc : k.collection? with
        | none =>
            have hpronoun : s.pronoun = u.pronoun := by
              unfold pronoun
              rw [hsame.mentions, hsame.current]
            simp only [hc, hpronoun] at hresult ⊢
            exact ⟨trivial, hresult, trivial⟩
        | some c =>
            simp only [hc] at hresult hremembers ⊢
            obtain ⟨slot, hslot, hslotKind, rfl⟩ := slot?_serve ⟨hkind, hc⟩ hw hresult
            have hshared : sharedSlot? w u = some slot := by
              unfold sharedSlot?
              rw [hw]
              exact hremembers _ _ hslot
            rw [hslotKind]
            unfold serve
            rw [hshared]
            exact ⟨rfl, rfl, rfl⟩

theorem repeated_resolve {w : Wildcard} {s u : Session} (hw : w.isInstance = false)
    (hsame : SameText s u) : Run.Repeated SameText (resolve w s).run u (resolve w u).run := by
  intro element t hrun hremembers
  obtain ⟨hresult, rfl⟩ := Resolution.run_eq_ok.mp hrun
  obtain ⟨_, hagain, hsupply⟩ := resolve_again hw hsame hresult hremembers
  obtain ⟨hsMentions, hsCurrent⟩ := text_resolve w s
  obtain ⟨huMentions, huCurrent⟩ := text_resolve w u
  refine ⟨_, Resolution.run_eq_ok.mpr ⟨hagain, rfl⟩, hsupply, ?_, ?_⟩
  · rw [hsMentions, huMentions, hsame.mentions]
  · rw [hsCurrent, huCurrent, hsame.current]

theorem repeated_resolveAt {w : Wildcard} {s u : Session} (k : Nat) (hw : w.isInstance = false)
    (hsame : s.mentions = u.mentions) :
    Run.Repeated SameText (resolveAt k w s).run u (resolveAt k w u).run := by
  intro element t hrun hremembers
  obtain ⟨hresult, rfl⟩ := Resolution.run_eq_ok.mp hrun
  have hturned : SameText { s with current := k } { u with current := k } := ⟨hsame, rfl⟩
  obtain ⟨hkind, hagain, hsupply⟩ :=
    resolve_again (u := { u with current := k }) hw hturned hresult hremembers
  obtain ⟨hsMentions, hsCurrent⟩ := text_resolve w { s with current := k }
  obtain ⟨huMentions, huCurrent⟩ := text_resolve w { u with current := k }
  refine ⟨_, Resolution.run_eq_ok.mpr ⟨hagain, rfl⟩, hsupply, ?_, ?_⟩
  · unfold resolveAt settleCurrent
    dsimp only
    rw [hsMentions, huMentions, hsCurrent, huCurrent, hkind, hsame]
  · exact hsCurrent.trans huCurrent.symm

/-! ## Reading again -/

def Recalls {α : Type} (run : Session → Run α) : Prop :=
  ∀ s u, SameText s u → Run.Repeated SameText (run s) u (run u)

/-- A run that comes to no fresh wildcard can be recalled. -/
theorem recalls_rule : Run.Rule fun ws run _ => (∀ s, Moves s (run s).2) ∧
    ((∀ w ∈ ws, w.isInstance = false) → Recalls run) where
  done a := ⟨Moves.rule.done a, fun _ _ _ hsame => .done hsame⟩
  failed ws e := ⟨Moves.rule.failed ws e, fun _ _ _ _ => .failed⟩
  noted a t := by
    refine ⟨Moves.rule.noted a t, fun _ s u hsame => ?_⟩
    intro b v hrun _
    cases hrun
    exact ⟨_, rfl, rfl, hsame.mentions, hsame.current⟩
  resolve w :=
    ⟨Moves.rule.resolve w, fun hws _ _ hsame => repeated_resolve (hws w List.mem_cons_self) hsame⟩
  bind := by
    rintro α β ws vs run next ms later ⟨hmoves, hrun⟩ hnext
    refine ⟨fun s => .bind (hmoves s) fun a => (hnext a).1, fun hws s u hsame => ?_⟩
    rw [List.forall_mem_append] at hws
    exact (hrun hws.1 s u hsame).bind (fun a t => (hnext a).1 t) fun a => (hnext a).2 hws.2

theorem repeated_work {pieces : List Piece} {k : Nat} {s u : Session}
    (h : ∀ w ∈ pieces.filterMap Piece.wildcard?, w.isInstance = false ∧
      ∀ v ∈ w.metadata.wildcardsWithin depthLimit, v.isInstance = false)
    (hsame : s.mentions = u.mentions) :
    Run.Repeated (fun s u => s.mentions = u.mentions) (work pieces k s) u (work pieces k u) := by
  induction pieces generalizing k s u with
  | nil => exact .done hsame
  | cons piece pieces ih =>
      cases piece with
      | literal t =>
          rw [work_literal, work_literal]
          exact (ih h hsame).map _
      | wildcard w =>
          simp only [List.filterMap_cons, Piece.wildcard?, List.forall_mem_cons] at h
          obtain ⟨⟨hw, hinner⟩, hrest⟩ := h
          rw [work_wildcard, work_wildcard]
          refine (repeated_resolveAt k hw hsame).bind ?_ ?_
          · intro element t
            exact .bind (.linesOf (.metadataReader depthLimit) w t) fun own t => .work pieces (k + 1) t
          · intro element t v hsame
            have hlines := (recalls_rule.metadataLines depthLimit w).2 hinner
            refine (hlines t v hsame).bind ?_ ?_
            · exact fun own t => .work pieces (k + 1) t
            · exact fun own t v hsame => (ih hrest hsame.mentions).map _

/-- A task that came about comes about again, the same to the last line, whatever the session was
called for in between; and nothing is drawn for it. -/
theorem task_again (c : Catalog) (dice : Dice) (tier : Tier) (calls : List Call) (prototype : Text)
    (shared : ∀ stop ∈ itinerary prototype, stop.wildcard.isInstance = false) (t : Task)
    (u : Session) (success : ((start c dice tier).after calls).task prototype = (.ok t, u))
    (later : List Call) :
    ∃ v, (u.after later).task prototype = (.ok t, v) ∧ v.supply = (u.after later).supply := by
  generalize (start c dice tier).after calls = s at success
  have hsized := sized_of_task success
  have hinside : ∀ w ∈ Text.wildcards prototype, w.isInstance = false ∧
      ∀ v ∈ w.metadata.wildcardsWithin depthLimit, v.isInstance = false := by
    have hwithin : ∀ w ∈ prototype.wildcardsWithin (depthLimit + 1), w.isInstance = false := by
      rw [← map_wildcard_stopsWithin (depthLimit + 1) [] prototype, List.forall_mem_map]
      exact shared
    intro w hw
    exact List.forall_mem_cons.mp fun v hv => hwithin v (List.mem_flatMap_of_mem hw hv)
  have hpieces : (Piece.ofSegments (Text.segments prototype)).filterMap Piece.wildcard? =
      Text.wildcards prototype := Piece.filterMap_ofSegments hsized
  have hrepeated := (repeated_work (k := 0) (s := s.opened prototype)
    (u := (u.after later).opened prototype) (by rw [hpieces]; exact hinside) rfl).map Task.mk
  have hremembers : Remembers u ((u.after later).opened prototype) := fun key slot hslot =>
    (Moves.after u later).slot?_stable hslot
  rw [task_eq (Text.wildcards?_eq_some hsized)] at success ⊢
  obtain ⟨v, hagain, hsupply, _⟩ := hrepeated t u success hremembers
  exact ⟨v, hagain, hsupply⟩

/-- The only person is drawn, and the call in between finds none left. -/
theorem task_again_after_failure :
    let c : Catalog :=
      { categories := [], gestures := [{ name := .text "waving".toList, tier := .easy }]
        locations := [], people := [{ name := .text "Eve".toList, gender := .female }]
        things := [], questions := [] }
    let prototype : Text := "Greet {female meta: {gesture}}, then follow {pron}.".toList
    let later : List Call := [.task "{gesture} at {female 1000}".toList]
    (∀ stop ∈ itinerary prototype, stop.wildcard.isInstance = false) ∧
      ∃ t u v, (start c ⟨0⟩ .easy).task prototype = (.ok t, u) ∧
        (u.after later).task prototype = (.ok t, v) ∧ v.supply = (u.after later).supply ∧
        t.text? = some "Greet Eve, then follow her.".toList := by
  intro c prototype later
  have shared : ∀ stop ∈ itinerary prototype, stop.wildcard.isInstance = false := by decide +kernel
  have hrun : ((start c ⟨0⟩ .easy).task prototype).1.toOption.map Task.text? =
      some (some "Greet Eve, then follow her.".toList) := by decide +kernel
  obtain ⟨t, u, htask, htext⟩ := Run.exists_ok hrun
  obtain ⟨v, hagain, hsupply⟩ := task_again c ⟨0⟩ .easy [] prototype shared t u htask later
  exact ⟨shared, t, u, v, htask, hagain, hsupply, htext⟩

end Session

end Errand
