import Errand.Session.Work
import Errand.Proofs.Random.Shuffle
import Errand.Proofs.Session.Agreement
import Errand.Proofs.Session.DepthFirst

/-! # Coupled sessions

Two sessions of different catalogs go the same way as long as the entries in their pools correspond
place by place and no kind tells two corresponding entries apart. Every draw then takes corresponding
entries, every seed and every kind that is settled on is the same in both, and so is every failure. It
is enough that the pools correspond from which the text at work draws.
-/

namespace Errand

/-- Whatever may be drawn for the wildcard comes from one of the collections. -/
def Wildcard.DrawsFrom (K : Collection → Prop) (w : Wildcard) : Prop := ∀ k c, w.Asks k c → K c

structure Slot.Coupled (E : Entry → Entry → Prop) (x y : Slot) : Prop where
  key : x.key = y.key
  kind : x.kind = y.kind
  entry : E x.entry y.entry

inductive Element.Coupled (E : Entry → Entry → Prop) : Option Element → Option Element → Prop
  | unknown : Coupled E none none
  | hidden : Coupled E (some .hidden) (some .hidden)
  | pronoun (word : Text) : Coupled E (some (.pronoun word)) (some (.pronoun word))
  | entry {a b : Entry} (h : E a b) : Coupled E (some (.entry a)) (some (.entry b))

namespace Pool

variable {α β : Type} {R : α → β → Prop} {xs : List α} {ys : List β}

abbrev TakenAlike (R : α → β → Prop) : Option (α × List α) → Option (β × List β) → Prop :=
  Option.Rel fun x y => R x.1 y.1 ∧ List.Forall₂ R x.2 y.2

theorem takeFirst?_alike {p : α → Bool} {q : β → Bool} (hpq : ∀ x y, R x y → p x = q y)
    (h : List.Forall₂ R xs ys) : TakenAlike R (takeFirst? p xs) (takeFirst? q ys) := by
  induction h with
  | nil => exact .none
  | @cons x y xs ys hxy hrest ih =>
      simp only [takeFirst?, hpq x y hxy]
      by_cases hq : q y = true
      · rw [if_pos hq, if_pos hq]
        exact .some ⟨hxy, hrest⟩
      · rw [if_neg hq, if_neg hq]
        generalize takeFirst? p xs = a at ih ⊢
        generalize takeFirst? q ys = b at ih ⊢
        cases ih with
        | none => exact .none
        | some htaken => exact .some ⟨htaken.1, .cons hxy htaken.2⟩

theorem takeLast?_alike (h : List.Forall₂ R xs ys) :
    TakenAlike R (takeLast? xs) (takeLast? ys) := by
  induction h with
  | nil => exact .none
  | @cons x y xs ys hxy _ ih =>
      simp only [takeLast?]
      generalize takeLast? xs = a at ih ⊢
      generalize takeLast? ys = b at ih ⊢
      cases ih with
      | none => exact .some ⟨hxy, .nil⟩
      | some htaken => exact .some ⟨htaken.1, .cons hxy htaken.2⟩

end Pool

namespace Session

/-- No kind tells corresponding entries apart, and their names are shown alike. -/
structure Bond (E : Entry → Entry → Prop) (like : Likeness) : Prop where
  accepts : ∀ {a b}, E a b → ∀ k : Kind, k.accepts a.entity = k.accepts b.entity
  shown : ∀ {a b}, E a b → like.shown a.entity.name b.entity.name

variable {E : Entry → Entry → Prop} {K : Collection → Prop} {like : Likeness} {s t : Session}

theorem pick?_alike (bond : Bond E like) (k : Kind) {xs ys : List Entry}
    (h : List.Forall₂ E xs ys) : Pool.TakenAlike E (pick? k xs) (pick? k ys) := by
  unfold pick?
  split
  · exact Pool.takeFirst?_alike (fun _ _ hab => bond.accepts hab k) h
  · exact Pool.takeLast?_alike h

/-- The sessions have come equally far, and the pools in `K` correspond. -/
structure Coupled (E : Entry → Entry → Prop) (K : Collection → Prop) (s t : Session) : Prop where
  dice : s.dice = t.dice
  current : s.current = t.current
  kinds : s.mentions.map Mention.kind = t.mentions.map Mention.kind
  pools : ∀ c, K c → List.Forall₂ E (s.pools.get c) (t.pools.get c)
  slots : List.Forall₂ (Slot.Coupled E) s.slots t.slots

theorem Coupled.slot? (h : Coupled E K s t) (key : Text) :
    Option.Rel (Slot.Coupled E) (s.slot? key) (t.slot? key) := by
  have hslots := h.slots
  unfold Session.slot?
  generalize s.slots = xs at hslots ⊢
  generalize t.slots = ys at hslots ⊢
  induction hslots with
  | nil => exact .none
  | @cons x y xs ys hxy _ ih =>
      simp only [List.find?_cons, hxy.key]
      by_cases hkey : y.key = key
      · simp only [hkey, decide_true]
        exact .some hxy
      · simp only [hkey, decide_false]
        exact ih

theorem Coupled.sharedSlot? (h : Coupled E K s t) (w : Wildcard) :
    Option.Rel (Slot.Coupled E) (sharedSlot? w s) (sharedSlot? w t) := by
  unfold Session.sharedSlot?
  split
  · exact .none
  · exact h.slot? w.keycode

theorem Coupled.pronoun (h : Coupled E K s t) : s.pronoun = t.pronoun := by
  rw [pronoun_eq, pronoun_eq, h.current, h.kinds]

theorem Coupled.drawn (h : Coupled E K s t) (w : Wildcard) (kind : Kind) (c : Collection)
    (dice : Dice) {a b : Entry} {rest others : List Entry} (hab : E a b)
    (hrest : List.Forall₂ E rest others) :
    Coupled E K (s.drawn w kind c dice a rest) (t.drawn w kind c dice b others) := by
  have hpools (u : Session) (e : Entry) (left : List Entry) :
      (u.drawn w kind c dice e left).pools = u.pools.set left c :=
    congrArg Supply.pools (supply_drawn w kind c dice e left u)
  have hdice (u : Session) (e : Entry) (left : List Entry) :
      (u.drawn w kind c dice e left).dice = dice :=
    congrArg Supply.dice (supply_drawn w kind c dice e left u)
  have htext (u : Session) (e : Entry) (left : List Entry) :
      (u.drawn w kind c dice e left).mentions = u.mentions ∧
        (u.drawn w kind c dice e left).current = u.current := by
    unfold Session.drawn keep
    split <;> exact ⟨rfl, rfl⟩
  refine ⟨?_, ?_, ?_, ?_, ?_⟩
  · rw [hdice, hdice]
  · rw [(htext s a rest).2, (htext t b others).2, h.current]
  · rw [(htext s a rest).1, (htext t b others).1, h.kinds]
  · intro d hd
    rw [hpools, hpools]
    by_cases hdc : d = c
    · rw [hdc, Pools.get_set_self, Pools.get_set_self]
      exact hrest
    · rw [Pools.get_set_of_ne _ _ hdc, Pools.get_set_of_ne _ _ hdc]
      exact h.pools d hd
  · rw [slots_drawn, slots_drawn]
    refine List.rel_append h.slots ?_
    split
    · exact .nil
    · exact .cons ⟨rfl, rfl, hab⟩ .nil

/-- A wildcard gets corresponding entries in coupled sessions, or in both it finds none. -/
theorem Coupled.serve (bond : Bond E like) (h : Coupled E K s t) (w : Wildcard) (k : Kind)
    {c : Collection} (hc : K c) :
    (serve w k c s).kind = (serve w k c t).kind ∧
      Run.Agree (Coupled E K) (Element.Coupled E) (serve w k c s).run (serve w k c t).run := by
  unfold Session.serve
  have hslot := h.sharedSlot? w
  generalize Session.sharedSlot? w s = x at hslot ⊢
  generalize Session.sharedSlot? w t = y at hslot ⊢
  cases hslot with
  | @some x y hxy =>
      exact ⟨congrArg some hxy.kind, .done ⟨h.dice, h.current, h.kinds, h.pools, h.slots⟩ (.entry hxy.entry)⟩
  | none =>
      have hpick (kind : Kind) := pick?_alike bond kind (h.pools c hc)
      rcases hsettle : settle w k t.dice with ⟨kind, dice⟩
      simp only [drawFresh, draw, h.dice, hsettle]
      have hpicked := hpick kind
      generalize pick? kind (s.pools.get c) = x at hpicked ⊢
      generalize pick? kind (t.pools.get c) = y at hpicked ⊢
      cases hpicked with
      | none => exact ⟨rfl, .failed ⟨rfl, h.current, h.kinds, h.pools, h.slots⟩⟩
      | some htaken =>
          exact ⟨rfl, .done (h.drawn w kind c dice htaken.1 htaken.2) (.entry htaken.1)⟩

theorem Coupled.resolve (bond : Bond E like) (h : Coupled E K s t) {w : Wildcard}
    (hw : w.DrawsFrom K) :
    (resolve w s).kind = (resolve w t).kind ∧
      Run.Agree (Coupled E K) (Element.Coupled E) (resolve w s).run (resolve w t).run := by
  unfold Session.resolve
  by_cases hname : w.name.isEmpty = true
  · rw [if_pos hname, if_pos hname]
    exact ⟨rfl, .done h .hidden⟩
  · rw [if_neg hname, if_neg hname]
    cases hkind : w.kind? with
    | none => exact ⟨rfl, .done h .unknown⟩
    | some k =>
        cases hc : k.collection? with
        | some c =>
            simp only [hc]
            exact h.serve bond w k (hw k c ⟨hkind, hc⟩)
        | none =>
            simp only [hc, h.pronoun]
            refine ⟨trivial, .done h ?_⟩
            split
            · exact .pronoun t.pronoun
            · exact .hidden

/-! ## Texts in coupled sessions -/

structure Tandem (first : Session) (stock : Collection → List Entry) (E : Entry → Entry → Prop)
    (K : Collection → Prop) (s t : Session) : Prop where
  coupled : Coupled E K s t
  orderly : Orderly first stock s.books

variable {c d : Catalog} {tier other : Tier} {first : Session}

theorem Tandem.resolve (bond : Bond E like) (h : Tandem first (stock c tier) E K s t) {w : Wildcard}
    (hw : w.DrawsFrom K) :
    (resolve w s).kind = (resolve w t).kind ∧
      Run.Agree (Tandem first (stock c tier) E K)
        (fun x y => Element.Coupled E x y ∧ (resolve w s).result = .ok x)
        (resolve w s).run (resolve w t).run := by
  obtain ⟨hkind, hagree⟩ := h.coupled.resolve bond hw
  refine ⟨hkind, hagree.sharpen ?_ ?_⟩
  · intro u hcoupled
    exact ⟨hcoupled, h.orderly.afterResolve w⟩
  · intro x y hx hxy
    exact ⟨hxy, (Resolution.run_eq_ok.mp (Prod.ext hx rfl)).1⟩

theorem Tandem.resolveAt (bond : Bond E like) (h : Tandem first (stock c tier) E K s t)
    {w : Wildcard} (hw : w.DrawsFrom K) (k : Nat) :
    Run.Agree (Tandem first (stock c tier) E K)
      (fun x y => Element.Coupled E x y ∧ (Session.resolve w { s with current := k }).result = .ok x)
      (resolveAt k w s).run (resolveAt k w t).run := by
  have hturned : Tandem first (stock c tier) E K { s with current := k } { t with current := k } :=
    ⟨⟨h.coupled.dice, rfl, h.coupled.kinds, h.coupled.pools, h.coupled.slots⟩, h.orderly⟩
  obtain ⟨hkind, hagree⟩ := hturned.resolve bond hw
  refine hagree.onSession (f := settleCurrent _) (g := settleCurrent _) fun u v close =>
    ⟨?_, close.orderly⟩
  obtain ⟨hdice, hcurrent, hkinds, hpools, hslots⟩ := close.coupled
  refine ⟨hdice, hcurrent, ?_, hpools, hslots⟩
  unfold settleCurrent
  dsimp only
  rw [map_kind_modify, map_kind_modify, hkinds, hcurrent, hkind]

/-- What a wildcard of two coupled sessions gets is shown alike. -/
theorem steady_tandem (bond : Bond E like) :
    Steady (fun w v => w = v ∧ w.DrawsFrom K) (Tandem first (stock c tier) E K) like where
  isEmpty h := by rw [h.1]
  resolve := by
    rintro w _ s t ⟨rfl, hw⟩ tandem
    refine (tandem.resolve bond hw).2.imp (fun _ _ tandem => tandem) ?_
    rintro x y ⟨hxy, _⟩
    cases hxy with
    | unknown => exact like.shown_text w.source
    | hidden => exact like.shown_text []
    | pronoun word => exact like.shown_text word
    | entry hab => exact bond.shown hab
  note text h := by
    obtain ⟨hdice, hcurrent, hkinds, hpools, hslots⟩ := h.coupled
    refine ⟨⟨hdice, hcurrent, hkinds, hpools, hslots⟩, ?_⟩
    rw [books_record_nestedTooDeep]
    exact h.orderly

structure TokenBond (first : Session) (stock : Collection → List Entry) (E : Entry → Entry → Prop)
    (like : Likeness) (ws : List Wildcard) (R : Token → Token → Prop) : Prop where
  literal : ∀ t, R (.literal t) (.literal t)
  wildcard : ∀ w ∈ ws, ∀ s x y lines others, Orderly first stock s.books →
    (Session.resolve w s).result = .ok x → Element.Coupled E x y → like.lines lines others →
      R (tokenOf w x lines) (tokenOf w y others)

variable {R : Token → Token → Prop}

theorem Tandem.work (bond : Bond E like) {pieces : List Piece} {k : Nat}
    (tokens : TokenBond first (stock c tier) E like (pieces.filterMap Piece.wildcard?) R)
    (hdraws : ∀ w ∈ pieces.filterMap Piece.wildcard?,
      w.DrawsFrom K ∧ Text.Throughout (Wildcard.DrawsFrom K) depthLimit w.metadata)
    (h : Tandem first (stock c tier) E K s t) :
    Run.Agree (Tandem first (stock c tier) E K) (List.Forall₂ R) (work pieces k s)
      (work pieces k t) := by
  induction pieces generalizing k s t with
  | nil => exact .done h .nil
  | cons piece pieces ih =>
      cases piece with
      | literal text =>
          rw [work_literal, work_literal]
          exact (ih tokens hdraws h).map fun _ _ hrest => .cons (tokens.literal text) hrest
      | wildcard w =>
          rw [List.filterMap_cons] at tokens hdraws
          obtain ⟨⟨hw, hinner⟩, hrest⟩ := List.forall_mem_cons.mp hdraws
          have horder : Orderly first (stock c tier) { s with current := k }.books := h.orderly
          rw [work_wildcard, work_wildcard]
          refine (h.resolveAt bond hw k).bind ?_
          rintro x y s₁ t₁ h₁ ⟨hxy, hresult⟩
          have hread := (steady_tandem bond).metadataReader depthLimit
            (hinner.parallel fun v hv => ⟨rfl, hv⟩) h₁
          refine (agree_linesOf (like.lines_same []) rfl h₁ hread).bind ?_
          intro lines others s₂ t₂ h₂ hlines
          have later : TokenBond first (stock c tier) E like (pieces.filterMap Piece.wildcard?) R :=
            ⟨tokens.literal, fun v hv => tokens.wildcard v (List.mem_cons_of_mem w hv)⟩
          refine (ih later hrest h₂).map fun _ _ htokens => .cons ?_ htokens
          exact tokens.wildcard w List.mem_cons_self _ _ _ _ _ horder hresult hxy hlines

theorem Tandem.task (bond : Bond E like) {prototype : Text}
    (tokens : TokenBond first (stock c tier) E like (Text.wildcards prototype) R)
    (hdraws : .oversized ∉ Text.segments prototype →
      Text.Throughout (Wildcard.DrawsFrom K) (depthLimit + 1) prototype)
    (h : Tandem first (stock c tier) E K s t) :
    Run.Agree (Tandem first (stock c tier) E K) (fun a b => List.Forall₂ R a.tokens b.tokens)
      (s.task prototype) (t.task prototype) := by
  by_cases sized : .oversized ∈ Text.segments prototype
  · rw [task_of_oversized sized, task_of_oversized sized]
    exact .failed h
  · have hpieces : (Piece.ofSegments (Text.segments prototype)).filterMap Piece.wildcard? =
        Text.wildcards prototype := Piece.filterMap_ofSegments sized
    rw [← hpieces] at tokens
    have hopened : Tandem first (stock c tier) E K (s.opened prototype) (t.opened prototype) :=
      ⟨⟨h.coupled.dice, h.coupled.current, rfl, h.coupled.pools, h.coupled.slots⟩, h.orderly⟩
    rw [task_eq (Text.wildcards?_eq_some sized), task_eq (Text.wildcards?_eq_some sized)]
    refine (Tandem.work (k := 0) bond tokens ?_ hopened).map fun _ _ htokens => htokens
    rw [hpieces]
    exact hdraws sized

/-! ## New sessions -/

theorem coupled_start (dice : Dice)
    (hstock : ∀ k, K k → List.Forall₂ E (stock c tier k) (stock d other k)) :
    Coupled E K (start c dice tier) (start d dice other) := by
  refine ⟨rfl, rfl, rfl, ?_, .nil⟩
  intro k hk
  cases k <;> exact Dice.forall₂_shuffle (hstock _ hk) _

/-- Tasks of one prototype from two catalogs correspond if their entries do, or they fail alike. -/
theorem sameOutcome_generateTask (bond : Bond E like) {prototype : Text} (dice : Dice)
    (hstock : ∀ k, K k → List.Forall₂ E (stock c tier k) (stock d other k))
    (tokens : TokenBond (start c dice tier) (stock c tier) E like (Text.wildcards prototype) R)
    (hdraws : .oversized ∉ Text.segments prototype →
      Text.Throughout (Wildcard.DrawsFrom K) (depthLimit + 1) prototype) :
    SameOutcome (fun a b => List.Forall₂ R a.tokens b.tokens)
      (generateTask prototype c dice tier).1 (generateTask prototype d dice other).1 := by
  have hstart : Tandem (start c dice tier) (stock c tier) E K (start c dice tier)
      (start d dice other) := ⟨coupled_start dice hstock, orderly_after c dice tier []⟩
  exact (hstart.task bond tokens hdraws).sameOutcome

end Session

end Errand
