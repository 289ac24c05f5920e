import Errand.Proofs.Session.Itinerary

/-! # Runs that agree

What a wildcard gets depends on its name, its type and its number, and on what the session can still
give. So texts whose wildcards ask for the same, read in two sessions that can give the same, give
the same lines and leave sessions that can give the same. Only the words of pronouns depend on the
text around them.
-/

namespace Errand

structure Wildcard.Akin (w v : Wildcard) : Prop where
  name : w.name = v.name
  type : w.type = v.type
  id : w.id = v.id

namespace Wildcard.Akin

variable {w v : Wildcard}

theorem refl (w : Wildcard) : w.Akin w := ⟨rfl, rfl, rfl⟩

theorem kind? (h : w.Akin v) : w.kind? = v.kind? := by
  unfold Wildcard.kind?
  rw [h.name]

theorem isInstance (h : w.Akin v) : w.isInstance = v.isInstance := by
  unfold Wildcard.isInstance
  rw [h.id]

theorem keycode (h : w.Akin v) : w.keycode = v.keycode := by
  have hoptions : w.options = v.options := by
    unfold options
    rw [h.kind?]
  have hmeaning : w.meaning = v.meaning := by
    unfold meaning
    rw [h.type, h.name, hoptions]
  unfold Wildcard.keycode
  rw [hmeaning, h.id]

end Wildcard.Akin

namespace Session

/-! ## What a pronoun depends on -/

/-- The pronoun after wildcards that have settled on these kinds. -/
def pronounAfter (kinds : List (Option Kind)) : Text :=
  let person := kinds.reverse.find? fun k => (k.map Kind.isPerson).getD false
  let other := kinds.reverse.find? fun k => !(k.map Kind.isSilent).getD false
  match person.or other with
  | some k => (k.map Kind.pronoun).getD "them".toList
  | none => "them".toList

/-- Of the wildcards before it a pronoun looks at the kinds only. -/
theorem pronoun_eq (s : Session) :
    s.pronoun = pronounAfter ((s.mentions.map Mention.kind).take s.current) := by
  unfold pronoun pronounAfter
  rw [← List.map_take, ← List.map_reverse]
  generalize (s.mentions.take s.current).reverse = before
  simp only [List.find?_map, Function.comp_def]
  cases before.find? fun m => (m.kind.map Kind.isPerson).getD false with
  | some m => rfl
  | none => cases before.find? fun m => !(m.kind.map Kind.isSilent).getD false <;> rfl

theorem map_kind_modify (mentions : List Mention) (i : Nat) (kind : Option Kind) :
    (mentions.modify i fun m => { m with kind }).map Mention.kind =
      (mentions.map Mention.kind).modify i fun _ => kind := by
  induction mentions generalizing i with
  | nil => cases i <;> rfl
  | cons m mentions ih =>
      cases i with
      | zero => rfl
      | succ i =>
          rw [List.modify_succ_cons, List.map_cons, List.map_cons, List.modify_succ_cons, ih]

/-! ## What a resolution depends on -/

/-- What a session can still give: what is left in its pools, what it keeps for its keys, and the
seed it has come to. -/
structure Supply where
  pools : Pools
  slots : List Slot
  dice : Dice

def supply (s : Session) : Supply := { pools := s.pools, slots := s.slots, dice := s.dice }

theorem supply_drawn (w : Wildcard) (kind : Kind) (c : Collection) (dice : Dice) (e : Entry)
    (rest : List Entry) (s : Session) :
    (s.drawn w kind c dice e rest).supply =
      { pools := s.pools.set rest c
        slots := s.slots ++ if w.isInstance then [] else [{ key := w.keycode, entry := e, kind }]
        dice } := by
  unfold drawn keep
  cases w.isInstance <;> simp [supply, record]

variable {w v : Wildcard} {s t : Session}

theorem serve_akin (h : w.Akin v) (hs : s.supply = t.supply) (k : Kind) (c : Collection) :
    (serve w k c s).kind = (serve v k c t).kind ∧
      (serve w k c s).result = (serve v k c t).result ∧
        (serve w k c s).session.supply = (serve v k c t).session.supply := by
  have hpools : s.pools = t.pools := congrArg Supply.pools hs
  have hslots : s.slots = t.slots := congrArg Supply.slots hs
  have hdice : s.dice = t.dice := congrArg Supply.dice hs
  have hshared : sharedSlot? w s = sharedSlot? v t := by
    unfold sharedSlot? slot?
    rw [h.isInstance, h.keycode, hslots]
  have hsettle : settle w k s.dice = settle v k t.dice := by
    unfold settle
    rw [h.type, hdice]
  unfold serve
  rw [hshared]
  cases sharedSlot? v t with
  | some slot => exact ⟨rfl, rfl, hs⟩
  | none =>
      rcases hdrawn : settle v k t.dice with ⟨kind, dice⟩
      rw [hdrawn] at hsettle
      have hpick : pick? kind (s.pools.get c) = pick? kind (t.pools.get c) := by rw [hpools]
      simp only [drawFresh, draw, hsettle, hdrawn, hpick]
      cases pick? kind (t.pools.get c) with
      | none =>
          refine ⟨rfl, rfl, ?_⟩
          change Supply.mk s.pools s.slots dice = Supply.mk t.pools t.slots dice
          rw [hpools, hslots]
      | some taken =>
          obtain ⟨e, rest⟩ := taken
          refine ⟨rfl, rfl, ?_⟩
          change (s.drawn w kind c dice e rest).supply = (t.drawn v kind c dice e rest).supply
          rw [supply_drawn, supply_drawn, hpools, hslots, h.isInstance, h.keycode]

/-- Wildcards that ask for the same get the same where the same can be given. -/
theorem resolve_akin (h : w.Akin v) (hs : s.supply = t.supply) :
    (resolve w s).kind = (resolve v t).kind ∧
      (resolve w s).session.supply = (resolve v t).session.supply ∧
        ((w.kind? = some .pron → s.pronoun = t.pronoun) →
          (resolve w s).result = (resolve v t).result) := by
  unfold resolve
  rw [h.name, h.kind?]
  by_cases hname : v.name.isEmpty = true
  · rw [if_pos hname, if_pos hname]
    exact ⟨rfl, hs, fun _ => rfl⟩
  · rw [if_neg hname, if_neg hname]
    cases v.kind? with
    | none => exact ⟨rfl, hs, fun _ => rfl⟩
    | some k =>
        cases hc : k.collection? with
        | some c =>
            simp only [hc]
            obtain ⟨hkind, hresult, hsupply⟩ := serve_akin h hs k c
            exact ⟨hkind, hsupply, fun _ => hresult⟩
        | none =>
            simp only [hc]
            refine ⟨trivial, hs, ?_⟩
            intro hpronoun
            by_cases hk : k = .pron
            · rw [hpronoun (by rw [hk])]
            · rw [if_neg hk, if_neg hk]

end Session

/-! ## Two runs -/

/-- Both runs fail of the same cause, or both come to an end with results that correspond. Either
way they leave sessions that are near each other. -/
inductive Run.Agree {α β : Type} (near : Session → Session → Prop) (same : α → β → Prop) :
    Run α → Run β → Prop
  | failed {e : Failure} {s t : Session} (close : near s t) :
      Agree near same (.error e, s) (.error e, t)
  | done {a : α} {b : β} {s t : Session} (close : near s t) (hsame : same a b) :
      Agree near same (.ok a, s) (.ok b, t)

namespace Run.Agree

variable {α β γ δ : Type} {near : Session → Session → Prop} {same : α → β → Prop}
  {sameNext : γ → δ → Prop} {x : Run α} {y : Run β}

theorem bind {f : α → Session → Run γ} {g : β → Session → Run δ} (h : Agree near same x y)
    (hnext : ∀ a b s t, near s t → same a b → Agree near sameNext (f a s) (g b t)) :
    Agree near sameNext (x.bind f) (y.bind g) := by
  cases h with
  | failed close => exact .failed close
  | done close hsame => exact hnext _ _ _ _ close hsame

theorem map {f : α → γ} {g : β → δ} (h : Agree near same x y)
    (hmap : ∀ a b, same a b → sameNext (f a) (g b)) :
    Agree near sameNext (x.map f) (y.map g) := by
  cases h with
  | failed close => exact .failed close
  | done close hsame => exact .done close (hmap _ _ hsame)

theorem of_ok {a : α} {s : Session} (h : Agree near same (.ok a, s) y) :
    ∃ b t, y = (.ok b, t) ∧ near s t ∧ same a b := by
  cases h with
  | done close hsame => exact ⟨_, _, rfl, close, hsame⟩

theorem imp {near' : Session → Session → Prop} {same' : α → β → Prop} (h : Agree near same x y)
    (hnear : ∀ s t, near s t → near' s t) (hsame : ∀ a b, same a b → same' a b) :
    Agree near' same' x y := by
  cases h with
  | failed close => exact .failed (hnear _ _ close)
  | done close result => exact .done (hnear _ _ close) (hsame _ _ result)

theorem sharpen {near' : Session → Session → Prop} {same' : α → β → Prop} (h : Agree near same x y)
    (hnear : ∀ t, near x.2 t → near' x.2 t) (hsame : ∀ a b, x.1 = .ok a → same a b → same' a b) :
    Agree near' same' x y := by
  cases h with
  | failed close => exact .failed (hnear _ close)
  | done close result => exact .done (hnear _ close) (hsame _ _ rfl result)

theorem onSession {near' : Session → Session → Prop} {f g : Session → Session}
    (h : Agree near same x y) (hnear : ∀ s t, near s t → near' (f s) (g t)) :
    Agree near' same (x.1, f x.2) (y.1, g y.2) := by
  cases h with
  | failed close => exact .failed (hnear _ _ close)
  | done close result => exact .done (hnear _ _ close) result

theorem remap {ε : Type} {f : ε → α} {g : ε → γ} {d : β → δ} {x : Run ε}
    (h : Agree near same (x.map f) y)
    (hmap : ∀ e b, same (f e) b → sameNext (g e) (d b)) :
    Agree near sameNext (x.map g) (y.map d) := by
  rcases x with ⟨_ | e, s⟩
  · cases h with
    | failed close => exact .failed close
  · cases h with
    | done close hsame => exact .done close (hmap e _ hsame)

theorem of_resolution {r q : Session.Resolution} (hresult : r.result = q.result)
    (close : near r.session q.session) :
    Agree near (fun a b => a = b ∧ r.result = .ok a) r.run q.run := by
  unfold Session.Resolution.run
  rw [← hresult]
  cases r.result with
  | error e => exact .failed close
  | ok a => exact .done close ⟨rfl, rfl⟩

end Run.Agree

inductive SameOutcome {α β : Type} (same : α → β → Prop) : Except Failure α → Except Failure β → Prop
  | failed (e : Failure) : SameOutcome same (.error e) (.error e)
  | done {a : α} {b : β} (h : same a b) : SameOutcome same (.ok a) (.ok b)

theorem SameOutcome.imp {α β : Type} {same same' : α → β → Prop} {x : Except Failure α}
    {y : Except Failure β} (h : SameOutcome same x y) (hsame : ∀ a b, same a b → same' a b) :
    SameOutcome same' x y := by
  cases h with
  | failed e => exact .failed e
  | done h => exact .done (hsame _ _ h)

theorem Run.Agree.sameOutcome {α β : Type} {near : Session → Session → Prop} {same : α → β → Prop}
    {x : Run α} {y : Run β} (h : Run.Agree near same x y) : SameOutcome same x.1 y.1 := by
  cases h with
  | failed => exact .failed _
  | done _ hsame => exact .done hsame

/-! ## Texts that ask for the same -/

inductive Segment.Parallel (R : Wildcard → Wildcard → Prop) : Segment → Segment → Prop
  | char (c : Char) : Parallel R (.char c) (.char c)
  | wildcard {w v : Wildcard} (h : R w v) : Parallel R (.wildcard w) (.wildcard v)
  | oversized : Parallel R .oversized .oversized

/-- The texts have the same characters and corresponding wildcards on their first `levels` levels;
below they are the same. -/
def Text.Parallel (R : Wildcard → Wildcard → Prop) : Nat → Text → Text → Prop
  | 0, t, u => t = u
  | levels + 1, t, u =>
      List.Forall₂ (Segment.Parallel fun w v => R w v ∧ Parallel R levels w.metadata v.metadata)
        (Text.segments t) (Text.segments u)

def Text.Throughout (P : Wildcard → Prop) : Nat → Text → Prop
  | 0, _ => True
  | levels + 1, t => ∀ w ∈ Text.wildcards t, P w ∧ Throughout P levels w.metadata

theorem Text.throughout_iff {P : Wildcard → Prop} {levels : Nat} {t : Text} (around : List Nat) :
    Throughout P levels t ↔ ∀ stop ∈ Session.stopsWithin levels around t, P stop.wildcard := by
  induction levels generalizing t around with
  | zero => simp [Throughout, Session.stopsWithin]
  | succ levels ih =>
      rw [Session.stopsWithin_succ]
      unfold Throughout
      constructor
      · intro h stop hstop
        obtain ⟨⟨w, i⟩, hw, hstop⟩ := List.mem_flatMap.mp hstop
        obtain ⟨hself, hinner⟩ := h w (List.fst_mem_of_mem_zipIdx hw)
        rcases List.mem_cons.mp hstop with rfl | hstop
        · exact hself
        · exact (ih (i :: around)).mp hinner stop hstop
      · intro h w hw
        obtain ⟨i, hat⟩ := List.getElem?_of_mem hw
        have hi := List.mk_mem_zipIdx_iff_getElem?.mpr hat
        have hblock : ∀ stop ∈ Session.stopsAt levels around (w, i), P stop.wildcard :=
          fun stop hstop => h stop (List.mem_flatMap_of_mem hi hstop)
        obtain ⟨hself, hinner⟩ := List.forall_mem_cons.mp hblock
        exact ⟨hself, (ih (i :: around)).mpr hinner⟩

theorem Text.Throughout.parallel {P : Wildcard → Prop} {R : Wildcard → Wildcard → Prop}
    {levels : Nat} {t : Text} (h : Throughout P levels t) (hR : ∀ w, P w → R w w) :
    Parallel R levels t t := by
  induction levels generalizing t with
  | zero => exact rfl
  | succ levels ih =>
      refine List.forall₂_same.mpr ?_
      intro segment hsegment
      cases segment with
      | char c => exact .char c
      | oversized => exact .oversized
      | wildcard w =>
          obtain ⟨hself, hinner⟩ := h w (Text.mem_wildcards.mpr hsegment)
          exact .wildcard ⟨hR w hself, ih hinner⟩

namespace Session

/-- How what two runs show corresponds, and how the lines that they give do. -/
structure Likeness where
  shown : Value → Value → Prop
  lines : List Text → List Text → Prop
  shown_text : ∀ t, shown (.text t) (.text t)
  lines_same : ∀ ts, lines ts ts
  lines_append : ∀ {a b later others}, lines a b → lines later others →
    lines (a ++ later) (b ++ others)
  lines_concat : ∀ {xs ys}, List.Forall₂ shown xs ys →
    Option.Rel (fun t u => lines (Text.metadataLines t) (Text.metadataLines u))
      (Task.concat? xs) (Task.concat? ys)

def Likeness.equal : Likeness where
  shown := Eq
  lines := Eq
  shown_text _ := rfl
  lines_same _ := rfl
  lines_append := by
    rintro a _ later _ rfl rfl
    rfl
  lines_concat := by
    intro xs ys h
    obtain rfl : xs = ys := by rwa [List.forall₂_eq_eq_eq] at h
    cases Task.concat? xs with
    | none => exact .none
    | some t => exact .some rfl

theorem agree_linesOf {near : Session → Session → Prop} {same : List Text → List Text → Prop}
    {reader other : LineReader} {w v : Wildcard} {s t : Session} (hnil : same [] [])
    (hempty : w.metadata.isEmpty = v.metadata.isEmpty) (close : near s t)
    (h : Run.Agree near same (reader w.metadata s) (other v.metadata t)) :
    Run.Agree near same (linesOf reader w s) (linesOf other v t) := by
  unfold linesOf
  rw [hempty]
  split
  · exact .done close hnil
  · exact h

/-- Corresponding wildcards fail alike in sessions that are near each other, or what is shown for them
is alike; and they leave the sessions near each other. -/
structure Steady (R : Wildcard → Wildcard → Prop) (near : Session → Session → Prop)
    (like : Likeness) : Prop where
  isEmpty : ∀ {w v}, R w v → w.metadata.isEmpty = v.metadata.isEmpty
  resolve : ∀ {w v s t}, R w v → near s t →
    Run.Agree near (fun x y => like.shown (w.display x) (v.display y)) (resolve w s).run
      (resolve v t).run
  note : ∀ {s t} text, near s t →
    near (s.record (.nestedTooDeep text)) (t.record (.nestedTooDeep text))

namespace Steady

variable {R : Wildcard → Wildcard → Prop} {near : Session → Session → Prop} {like : Likeness}
  {reader other : LineReader} {P : Text → Text → Prop} {s t : Session}

theorem replaceSegments (h : Steady R near like)
    (hreader : ∀ {t u s₁ s₂}, P t u → near s₁ s₂ →
      Run.Agree near like.lines (reader t s₁) (other u s₂))
    {xs ys : List Segment}
    (hxy : List.Forall₂ (Segment.Parallel fun w v => R w v ∧ P w.metadata v.metadata) xs ys)
    (close : near s t) :
    Run.Agree near (fun a b => List.Forall₂ like.shown a.1 b.1 ∧ like.lines a.2 b.2)
      (replaceSegments reader xs s) (replaceSegments other ys t) := by
  induction hxy generalizing s t with
  | nil => exact .done close ⟨.nil, like.lines_same []⟩
  | cons hsegment _ ih =>
      cases hsegment with
      | oversized => exact .failed close
      | char c =>
          rw [replaceSegments_char, replaceSegments_char]
          exact (ih close).map fun _ _ hab => ⟨.cons (like.shown_text [c]) hab.1, hab.2⟩
      | wildcard hwv =>
          rw [replaceSegments_wildcard, replaceSegments_wildcard]
          refine (h.resolve hwv.1 close).bind ?_
          intro x y s₁ t₁ close hshown
          refine (agree_linesOf (like.lines_same []) (h.isEmpty hwv.1) close
            (hreader hwv.2 close)).bind ?_
          intro own others s₂ t₂ close hown
          exact (ih close).map fun _ _ hab => ⟨.cons hshown hab.1, like.lines_append hown hab.2⟩

theorem replaceText (h : Steady R near like)
    (hreader : ∀ {t u s₁ s₂}, P t u → near s₁ s₂ →
      Run.Agree near like.lines (reader t s₁) (other u s₂))
    {text twin : Text}
    (hxy : List.Forall₂ (Segment.Parallel fun w v => R w v ∧ P w.metadata v.metadata)
      (Text.segments text) (Text.segments twin))
    (close : near s t) :
    Run.Agree near
      (fun a b => like.lines (Text.metadataLines a.1 ++ a.2) (Text.metadataLines b.1 ++ b.2))
      (replaceText reader text s) (replaceText other twin t) := by
  rw [replaceText_eq, replaceText_eq]
  refine (h.replaceSegments (P := P) hreader hxy close).bind ?_
  rintro a b s₁ t₁ close ⟨hshown, hlines⟩
  have hconcat := like.lines_concat hshown
  generalize Task.concat? a.1 = x at hconcat ⊢
  generalize Task.concat? b.1 = y at hconcat ⊢
  cases hconcat with
  | none => exact .failed close
  | some hfilled => exact .done close (like.lines_append hfilled hlines)

theorem metadataReader (h : Steady R near like) (levels : Nat) {text twin : Text}
    (hparallel : Text.Parallel R levels text twin) (close : near s t) :
    Run.Agree near like.lines (metadataReader levels text s) (metadataReader levels twin t) := by
  induction levels generalizing text twin s t with
  | zero =>
      obtain rfl : text = twin := hparallel
      exact .done (h.note text close) (like.lines_same _)
  | succ levels ih =>
      rw [metadataReader_succ, metadataReader_succ]
      exact (h.replaceText (P := Text.Parallel R levels) ih hparallel close).map fun _ _ hab => hab

end Steady

end Session

end Errand
