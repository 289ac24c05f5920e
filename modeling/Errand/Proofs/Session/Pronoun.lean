import Errand.Proofs.Random.Shuffle
import Errand.Proofs.Session.Agreement
import Errand.Proofs.Session.Tiling

/-! # What pronouns refer to

A pronoun stands for the nearest person among the wildcards of the prototype before it; where there is
none, for the nearest of them that shows something. It is chosen by the kind on which that wildcard has
settled, unseen what the wildcard got. That is sound because every wildcard that got an entry has settled
on a kind that accepts it, whether the entry was drawn for it or kept for its key. Inside metadata the
wildcards before the one that carries the metadata count.
-/

namespace Errand

def Gender.pronoun : Gender → Text
  | .male => "him".toList
  | .female => "her".toList

namespace Wildcard

def isPerson (w : Wildcard) : Bool := w.kind?.any Kind.isPerson

/-- Empty braces, a pronoun, or a wildcard of kind `void`. -/
def isSilent (w : Wildcard) : Bool := w.name.isEmpty || w.kind?.any Kind.isSilent

def isThing (w : Wildcard) : Bool :=
  w.kind?.any fun k => k.collection? = some .object || k.collection? = some .location

/-- The wildcard settles on a gender: by its name, by its type, or by a draw for want of a type. -/
def IsGendered (w : Wildcard) : Prop :=
  w.kind? = some .name →
    w.type = none ∨ w.type = some "male".toList ∨ w.type = some "female".toList

end Wildcard

namespace Kind

theorem isPerson_iff {k : Kind} : k.isPerson = true ↔ k.collection? = some .name := by
  cases k <;> decide

theorem isSilent_iff {k : Kind} : k.isSilent = true ↔ k.collection? = none := by
  cases k <;> decide

theorem pronoun_of_not_isPerson {k : Kind} (h : k.isPerson = false) :
    k.pronoun =
      if k.collection? = some .object || k.collection? = some .location then "it".toList
      else "them".toList := by
  cases k <;> first | rfl | cases h

theorem ofQualifier?_eq_male_or_female {type : Text} {q : Kind} (h : ofQualifier? type = some q)
    (hq : q = .male ∨ q = .female) : type = "male".toList ∨ type = "female".toList := by
  obtain ⟨entry, hfind, rfl⟩ := Option.map_eq_some_iff.mp h
  have hmem := List.mem_of_find?_eq_some hfind
  have htype : entry.1 = type := by simpa using List.find?_some hfind
  have hall : ∀ entry ∈ qualifiers, entry.2 = .male ∨ entry.2 = .female →
      entry.1 = "male".toList ∨ entry.1 = "female".toList := by decide
  rw [← htype]
  exact hall entry hmem hq

end Kind

namespace Wildcard

variable {w : Wildcard} {n k : Kind}

theorem gender_of_isGendered (hw : w.kind? = some n) (hn : n.isPerson = true) (h : w.IsGendered)
    (hk : k ∈ w.choices n) : k = .male ∨ k = .female := by
  rw [mem_choices_iff] at hk
  cases n with
  | name =>
      rcases h hw with htype | htype | htype <;> rw [htype] at hk
      · simpa [Kind.options] using hk
      · exact .inl hk
      · exact .inr hk
  | male => exact .inl hk
  | female => exact .inr hk
  | _ => cases hn

theorem name_of_not_isGendered (h : ¬ w.IsGendered) (hw : w.kind? = some n)
    (hk : k ∈ w.choices n) : k = .name := by
  unfold IsGendered at h
  rw [Classical.not_imp] at h
  obtain ⟨hname, htype⟩ := h
  obtain rfl : n = .name := Option.some.inj (hw.symm.trans hname)
  rw [mem_choices_iff, if_neg (by decide)] at hk
  cases ht : w.type with
  | none => exact absurd (.inl ht) htype
  | some type =>
      simp only [ht, Option.some.injEq, reduceCtorEq, false_or] at hk htype
      cases hq : Kind.ofQualifier? type with
      | none => simpa [hq] using hk
      | some q =>
          have hother : q ∉ Kind.options .name := by
            intro hmem
            apply htype
            exact Kind.ofQualifier?_eq_male_or_female hq (by simpa [Kind.options] using hmem)
          simpa [hq, hother] using hk

end Wildcard

namespace Session

/-! ## What a wildcard stands for -/

/-- The item that is found first from the end, and that what comes after it was passed over. -/
theorem find?_reverse_eq_some {α : Type} {p : α → Bool} {items : List α} {x : α} :
    items.reverse.find? p = some x ↔
      ∃ front after, items = front ++ x :: after ∧ p x = true ∧ ∀ y ∈ after, p y = false := by
  rw [List.find?_eq_some_iff_append]
  constructor
  · rintro ⟨hx, passed, rest, hsplit, hpassed⟩
    refine ⟨rest.reverse, passed.reverse, ?_, hx, ?_⟩
    · rw [← List.reverse_reverse items, hsplit]
      simp
    · intro y hy
      simpa using hpassed y (List.mem_reverse.mp hy)
  · rintro ⟨front, after, rfl, hx, hafter⟩
    refine ⟨hx, after.reverse, front.reverse, by simp, ?_⟩
    intro y hy
    simpa using hafter y (List.mem_reverse.mp hy)

/-- The word refers to one of the wildcards before it, given with what they got. -/
inductive Refers (before : List (Wildcard × Option Element)) : Text → Prop
  /-- The nearest person has a gender. -/
  | person {front after : List (Wildcard × Option Element)} {w : Wildcard} {e : Entry} {p : Person}
      (split : before = front ++ (w, some (.entry e)) :: after)
      (nearest : ∀ x ∈ after, x.1.isPerson = false) (hw : w.isPerson = true)
      (gendered : w.IsGendered) (got : e.entity = .person p) : Refers before p.gender.pronoun
  /-- The nearest person was asked for by a type that is no gender. -/
  | anyone {front after : List (Wildcard × Option Element)} {w : Wildcard} {x : Option Element}
      (split : before = front ++ (w, x) :: after)
      (nearest : ∀ x ∈ after, x.1.isPerson = false) (hw : w.isPerson = true)
      (ungendered : ¬ w.IsGendered) : Refers before "him".toList
  /-- There is no person, and the nearest that is not silent is of some other kind or of none. -/
  | other {front after : List (Wildcard × Option Element)} {w : Wildcard} {x : Option Element}
      (nobody : ∀ x ∈ before, x.1.isPerson = false)
      (split : before = front ++ (w, x) :: after)
      (nearest : ∀ x ∈ after, x.1.isSilent = true) (hw : w.isSilent = false) :
      Refers before (if w.isThing then "it".toList else "them".toList)
  /-- There is nothing to refer to. -/
  | nothing (nobody : ∀ x ∈ before, x.1.isPerson = false)
      (silent : ∀ x ∈ before, x.1.isSilent = true) : Refers before "them".toList

namespace Refers

variable {before front after : List (Wildcard × Option Element)} {x : Wildcard × Option Element}

theorem find?_person (split : before = front ++ x :: after)
    (nearest : ∀ y ∈ after, y.1.isPerson = false) (hx : x.1.isPerson = true) :
    before.reverse.find? (fun y => y.1.isPerson) = some x :=
  find?_reverse_eq_some.mpr ⟨front, after, split, hx, nearest⟩

theorem find?_nobody (nobody : ∀ y ∈ before, y.1.isPerson = false) :
    before.reverse.find? (fun y => y.1.isPerson) = none := by
  simpa using nobody

theorem find?_other (split : before = front ++ x :: after)
    (nearest : ∀ y ∈ after, y.1.isSilent = true) (hx : x.1.isSilent = false) :
    before.reverse.find? (fun y => !y.1.isSilent) = some x :=
  find?_reverse_eq_some.mpr
    ⟨front, after, split, by simp [hx], fun y hy => by simp [nearest y hy]⟩

theorem find?_silent (silent : ∀ y ∈ before, y.1.isSilent = true) :
    before.reverse.find? (fun y => !y.1.isSilent) = none := by
  simpa using silent

theorem unique {word other : Text} (h : Refers before word) (h' : Refers before other) :
    word = other := by
  cases h with
  | person split nearest hw gendered got =>
      have hfound := find?_person split nearest hw
      cases h' with
      | person split nearest hw _ got' =>
          have heq := hfound.symm.trans (find?_person split nearest hw)
          simp only [Option.some.injEq, Prod.mk.injEq, Element.entry.injEq] at heq
          rw [heq.2, got'] at got
          cases got
          rfl
      | anyone split nearest hw ungendered =>
          have heq := hfound.symm.trans (find?_person split nearest hw)
          simp only [Option.some.injEq, Prod.mk.injEq] at heq
          exact absurd (heq.1 ▸ gendered) ungendered
      | other nobody | nothing nobody =>
          rw [find?_nobody nobody] at hfound
          cases hfound
  | anyone split nearest hw ungendered =>
      have hfound := find?_person split nearest hw
      cases h' with
      | person split nearest hw gendered =>
          have heq := hfound.symm.trans (find?_person split nearest hw)
          simp only [Option.some.injEq, Prod.mk.injEq] at heq
          exact absurd (heq.1 ▸ gendered) ungendered
      | anyone => rfl
      | other nobody | nothing nobody =>
          rw [find?_nobody nobody] at hfound
          cases hfound
  | other nobody split nearest hw =>
      have hfound := find?_other split nearest hw
      cases h' with
      | person split nearest hw | anyone split nearest hw =>
          have hperson := find?_person split nearest hw
          rw [find?_nobody nobody] at hperson
          cases hperson
      | other _ split nearest hw =>
          have heq := hfound.symm.trans (find?_other split nearest hw)
          simp only [Option.some.injEq, Prod.mk.injEq] at heq
          rw [heq.1]
      | nothing _ silent =>
          rw [find?_silent silent] at hfound
          cases hfound
  | nothing nobody silent =>
      cases h' with
      | person split nearest hw | anyone split nearest hw =>
          have hperson := find?_person split nearest hw
          rw [find?_nobody nobody] at hperson
          cases hperson
      | other _ split nearest hw =>
          have hfound := find?_other split nearest hw
          rw [find?_silent silent] at hfound
          cases hfound
      | nothing => rfl

end Refers

/-- A wildcard with what it got, and the kind on which it has settled. -/
inductive Settles : Wildcard × Option Element → Option Kind → Prop
  | entry {w : Wildcard} {n k : Kind} {c : Collection} {e : Entry} (asks : w.Asks n c)
      (choice : k ∈ w.choices n) (accepts : k.accepts e.entity = true) :
      Settles (w, some (.entry e)) (some k)
  | blank {w : Wildcard} (hw : w.name = [] ∨ w.kind? = some .void) :
      Settles (w, some .hidden) (some .void)
  | pronoun {w : Wildcard} {word : Text} (hw : w.kind? = some .pron) :
      Settles (w, some (.pronoun word)) (some .pron)
  | unknown {w : Wildcard} (hname : w.name ≠ []) (hw : w.kind? = none) : Settles (w, none) none

variable {c : Catalog} {tier : Tier} {first s : Session}

theorem settles_of_result (h : Orderly first (stock c tier) s.books) {w : Wildcard}
    {x : Option Element} (hresult : (resolve w s).result = .ok x) :
    Settles (w, x) (resolve w s).kind := by
  have hsome := isSome_of_result hresult
  rcases entry_or_plain hresult with ⟨n, d, e, asks, rfl⟩ | plain
  · obtain ⟨k, hchoice, hkind, haccepts⟩ := h.kind_of_entry asks.1 hresult
    rw [hkind]
    exact .entry asks hchoice haccepts
  · generalize (resolve w s).kind = kind at plain ⊢
    cases plain with
    | unknown hkind =>
        have hname : w.name ≠ [] := fun hname => nomatch hsome.mpr (.inl hname)
        exact .unknown hname hkind
    | blank hkind => exact .blank hkind
    | pronoun hkind => exact .pronoun hkind

namespace Settles

variable {x : Wildcard × Option Element} {kind : Option Kind}

theorem isPerson (h : Settles x kind) : x.1.isPerson = (kind.map Kind.isPerson).getD false := by
  unfold Wildcard.isPerson
  cases h with
  | @entry w n k c e asks choice _ =>
      have hiff : n.isPerson = k.isPerson := by
        rw [Bool.eq_iff_iff, Kind.isPerson_iff, Kind.isPerson_iff,
          Wildcard.collection?_of_mem_choices choice]
      simp [asks.1, hiff]
  | blank hw =>
      rcases hw with hname | hkind
      · rw [Wildcard.kind?_of_blank hname]
        rfl
      · rw [hkind]
        rfl
  | pronoun hw | unknown _ hw =>
      rw [hw]
      rfl

theorem isSilent (h : Settles x kind) : x.1.isSilent = (kind.map Kind.isSilent).getD false := by
  unfold Wildcard.isSilent
  cases h with
  | @entry w n k c e asks choice _ =>
      have hname : w.name ≠ [] :=
        fun hname => Wildcard.not_asks_of_unknown (Wildcard.kind?_of_blank hname) n c asks
      have hserved : k.collection? = some c :=
        (Wildcard.collection?_of_mem_choices choice).trans asks.2
      have hn : n.isSilent = false := by
        rw [Bool.eq_false_iff, ne_eq, Kind.isSilent_iff, asks.2]
        simp
      have hk : k.isSilent = false := by
        rw [Bool.eq_false_iff, ne_eq, Kind.isSilent_iff, hserved]
        simp
      simp [asks.1, hn, hk, hname]
  | blank hw =>
      rcases hw with hname | hkind
      · rw [hname]
        rfl
      · rw [hkind]
        simp [Kind.isSilent]
  | pronoun hw =>
      rw [hw]
      simp [Kind.isSilent]
  | unknown hname hw =>
      rw [hw]
      simp [hname]

theorem refers_of_person {before front after : List (Wildcard × Option Element)} (h : Settles x kind)
    (split : before = front ++ x :: after) (nearest : ∀ y ∈ after, y.1.isPerson = false)
    (hx : x.1.isPerson = true) : Refers before ((kind.map Kind.pronoun).getD "them".toList) := by
  have hkind := h.isPerson.symm.trans hx
  cases h with
  | @entry w n k c e asks choice accepts =>
      have hn : n.isPerson = true := by simpa [Wildcard.isPerson, asks.1] using hx
      have hdescribes := Kind.describes_of_accepts accepts
      by_cases hgendered : w.IsGendered
      · rcases Wildcard.gender_of_isGendered asks.1 hn hgendered choice with rfl | rfl
        · obtain ⟨p, hp, hgender⟩ := hdescribes
          have hrefers := Refers.person split nearest hx hgendered hp
          rwa [hgender] at hrefers
        · obtain ⟨p, hp, hgender⟩ := hdescribes
          have hrefers := Refers.person split nearest hx hgendered hp
          rwa [hgender] at hrefers
      · obtain rfl := Wildcard.name_of_not_isGendered hgendered asks.1 choice
        exact .anyone split nearest hx hgendered
  | blank | pronoun | unknown => cases hkind

theorem refers_of_other {before front after : List (Wildcard × Option Element)} (h : Settles x kind)
    (nobody : ∀ y ∈ before, y.1.isPerson = false) (split : before = front ++ x :: after)
    (nearest : ∀ y ∈ after, y.1.isSilent = true) (hx : x.1.isSilent = false) :
    Refers before ((kind.map Kind.pronoun).getD "them".toList) := by
  have hperson : x.1.isPerson = false := nobody x (by simp [split])
  have hsilent := h.isSilent.symm.trans hx
  have hother := h.isPerson.symm.trans hperson
  cases h with
  | @entry w n k c e asks choice _ =>
      have hthing : w.isThing = (k.collection? = some .object || k.collection? = some .location) := by
        simp [Wildcard.isThing, asks.1, Wildcard.collection?_of_mem_choices choice]
      have hrefers := Refers.other nobody split nearest hx
      rw [hthing] at hrefers
      rw [Option.map_some, Option.getD_some, Kind.pronoun_of_not_isPerson hother]
      exact hrefers
  | blank | pronoun => cases hsilent
  | @unknown w _ hw =>
      have hthing : w.isThing = false := by simp [Wildcard.isThing, hw]
      have hrefers := Refers.other nobody split nearest hx
      rwa [hthing] at hrefers

end Settles

/-- The pronoun after the kinds on which wildcards have settled refers to one of these wildcards. -/
theorem refers_pronounAfter {before : List (Wildcard × Option Element)} {kinds : List (Option Kind)}
    (h : List.Forall₂ Settles before kinds) : Refers before (pronounAfter kinds) := by
  obtain ⟨rows, rfl, rfl, hrows⟩ := exists_pairs h
  have hisPerson : ∀ row ∈ rows, row.1.1.isPerson = (row.2.map Kind.isPerson).getD false :=
    fun row hrow => (hrows row hrow).isPerson
  have hisSilent : ∀ row ∈ rows, row.1.1.isSilent = (row.2.map Kind.isSilent).getD false :=
    fun row hrow => (hrows row hrow).isSilent
  unfold pronounAfter
  rw [← List.map_reverse, List.find?_map, List.find?_map]
  cases hperson : rows.reverse.find?
      ((fun k => (k.map Kind.isPerson).getD false) ∘ Prod.snd) with
  | some row =>
      obtain ⟨front, after, rfl, hrow, hafter⟩ := find?_reverse_eq_some.mp hperson
      have hmem : row ∈ front ++ row :: after := by simp
      refine (hrows row hmem).refers_of_person (List.map_append.trans (by rw [List.map_cons])) ?_
        ((hisPerson row hmem).trans hrow)
      refine List.forall_mem_map.mpr fun other hother => ?_
      exact (hisPerson other (by simp [hother])).trans (hafter other hother)
  | none =>
      have hnobody : ∀ x ∈ rows.map Prod.fst, x.1.isPerson = false := by
        refine List.forall_mem_map.mpr fun row hrow => ?_
        rw [hisPerson row hrow]
        simpa using List.find?_eq_none.mp hperson row (List.mem_reverse.mpr hrow)
      cases hother : rows.reverse.find?
          ((fun k => !(k.map Kind.isSilent).getD false) ∘ Prod.snd) with
      | some row =>
          obtain ⟨front, after, rfl, hrow, hafter⟩ := find?_reverse_eq_some.mp hother
          have hmem : row ∈ front ++ row :: after := by simp
          refine (hrows row hmem).refers_of_other hnobody
            (List.map_append.trans (by rw [List.map_cons])) ?_
            ((hisSilent row hmem).trans (by simpa using hrow))
          refine List.forall_mem_map.mpr fun other hother => ?_
          exact (hisSilent other (by simp [hother])).trans (by simpa using hafter other hother)
      | none =>
          refine .nothing hnobody (List.forall_mem_map.mpr fun row hrow => ?_)
          rw [hisSilent row hrow]
          simpa using List.find?_eq_none.mp hother row (List.mem_reverse.mpr hrow)

/-! ## Pronouns on the way -/

theorem result_of_pron {w : Wildcard} (hw : w.kind? = some .pron) (s : Session) :
    (resolve w s).result = .ok (some (.pronoun s.pronoun)) := by
  have hname : w.name.isEmpty = false := by
    cases hempty : w.name.isEmpty with
    | false => rfl
    | true =>
        rw [Wildcard.kind?_of_blank (List.isEmpty_iff.mp hempty)] at hw
        cases hw
  simp [resolve, hname, hw, Kind.collection?]

/-- On the way through the metadata of a wildcard the text at work stays where it is, and every pronoun
is the one for this place. -/
theorem pronouns_of_travel_inner {stops : List Stop} (hinner : ∀ stop ∈ stops, 1 < stop.place.length)
    {s u : Session} {elements : List (Option Element)}
    (h : travel visit stops s = (.ok elements, u)) :
    (u.mentions = s.mentions ∧ u.current = s.current) ∧
      ∀ x ∈ stops.zip elements, x.1.wildcard.kind? = some .pron →
        x.2 = some (.pronoun s.pronoun) := by
  induction stops generalizing s elements with
  | nil =>
      cases h
      exact ⟨⟨rfl, rfl⟩, fun x hx => absurd hx List.not_mem_nil⟩
  | cons stop stops ih =>
      obtain ⟨hlong, hrest⟩ := List.forall_mem_cons.mp hinner
      have hvisit : visit stop s = resolve stop.wildcard s := by
        unfold visit
        split
        · next hplace => simp [hplace] at hlong
        · rfl
      obtain ⟨element, later, hresult, hlater, rfl⟩ := travel_cons_eq_ok.mp h
      rw [hvisit] at hresult hlater
      obtain ⟨hmentions, hcurrent⟩ := text_resolve stop.wildcard s
      obtain ⟨⟨huMentions, huCurrent⟩, hpronouns⟩ := ih hrest hlater
      have hsame : (resolve stop.wildcard s).session.pronoun = s.pronoun := by
        unfold Session.pronoun
        rw [hmentions, hcurrent]
      refine ⟨⟨huMentions.trans hmentions, huCurrent.trans hcurrent⟩, ?_⟩
      rw [List.zip_cons_cons, List.forall_mem_cons]
      constructor
      · intro hkind
        rw [result_of_pron hkind] at hresult
        exact (Except.ok.inj hresult).symm
      · intro x hx hkind
        rw [hpronouns x hx hkind, hsame]

/-- Every pronoun refers to one of the wildcards before the one in whose place or metadata it stands. -/
def Referring (got : List (Wildcard × Option Element)) (visited : List (Stop × Option Element)) :
    Prop :=
  ∀ x ∈ visited, x.1.wildcard.kind? = some .pron →
    ∃ k word, x.1.place.getLast? = some k ∧ x.2 = some (.pronoun word) ∧ Refers (got.take k) word

/-- Pronouns in the metadata of a wildcard are the one that would stand in its place. -/
theorem Referring.same {got : List (Wildcard × Option Element)}
    {visited : List (Stop × Option Element)} (h : Referring got visited) {x y : Stop × Option Element}
    (hx : x ∈ visited) (hy : y ∈ visited) (hxKind : x.1.wildcard.kind? = some .pron)
    (hyKind : y.1.wildcard.kind? = some .pron)
    (hplace : x.1.place.getLast? = y.1.place.getLast?) : x.2 = y.2 := by
  obtain ⟨k, word, hk, hword, hrefers⟩ := h x hx hxKind
  obtain ⟨l, other, hl, hother, hrefersOther⟩ := h y hy hyKind
  obtain rfl : k = l := Option.some.inj (hk.symm.trans (hplace.trans hl))
  rw [hword, hother, hrefers.unique hrefersOther]

/-- The wildcards before the one at work have settled on the kinds noted for them. -/
def Noted (before : List (Wildcard × Option Element)) (s : Session) : Prop :=
  List.Forall₂ Settles before ((s.mentions.map Mention.kind).take before.length)

theorem Noted.refers {before : List (Wildcard × Option Element)} (h : Noted before s)
    (hcurrent : s.current = before.length) : Refers before s.pronoun := by
  rw [pronoun_eq, hcurrent]
  exact refers_pronounAfter h

theorem take_modify_self {α : Type} (items : List α) (i : Nat) (f : α → α) :
    (items.modify i f).take i = items.take i := by
  rw [List.take_modify, List.modify_eq_self (List.length_take_le i items)]

theorem take_succ_modify {α : Type} {items : List α} {i : Nat} (h : i < items.length) (x : α) :
    (items.modify i fun _ => x).take (i + 1) = items.take i ++ [x] := by
  rw [List.take_add_one, take_modify_self]
  simp [h]

theorem text_resolveAt (k : Nat) (w : Wildcard) (s : Session) :
    (resolveAt k w s).session.current = k ∧
      (resolveAt k w s).session.mentions.map Mention.kind =
        (s.mentions.map Mention.kind).modify k fun _ => (resolveAt k w s).kind := by
  obtain ⟨hmentions, hcurrent⟩ := text_resolve w { s with current := k }
  refine ⟨hcurrent, ?_⟩
  unfold resolveAt settleCurrent
  dsimp only
  rw [map_kind_modify, hmentions, hcurrent]

theorem Noted.resolveAt {before : List (Wildcard × Option Element)} (h : Noted before s)
    (horder : Orderly first (stock c tier) s.books) (hroom : before.length < s.mentions.length)
    {w : Wildcard} {x : Option Element}
    (hresult : (resolveAt before.length w s).result = .ok x) :
    Noted (before ++ [(w, x)]) (resolveAt before.length w s).session := by
  have horderTurned : Orderly first (stock c tier) { s with current := before.length }.books :=
    horder
  unfold Noted
  rw [(text_resolveAt before.length w s).2, List.length_append, List.length_singleton,
    take_succ_modify (by simpa using hroom)]
  exact List.rel_append h (.cons (settles_of_result horderTurned hresult) .nil)

/-- A wildcard of the prototype and those in its metadata: their pronouns refer to the wildcards before
it. -/
theorem Noted.block {before : List (Wildcard × Option Element)} (h : Noted before s)
    (horder : Orderly first (stock c tier) s.books) (hroom : before.length < s.mentions.length)
    {w : Wildcard} {x : Option Element} {xs : List (Option Element)} {t : Session}
    (hresult : (Session.resolveAt before.length w s).result = .ok x)
    (hinner : travel visit (stopsWithin depthLimit [before.length] w.metadata)
      (Session.resolveAt before.length w s).session = (.ok xs, t))
    {got : List (Wildcard × Option Element)} (hgot : got.take before.length = before) :
    Noted (before ++ [(w, x)]) t ∧ t.mentions.length = s.mentions.length ∧
      Referring got ((stopsAt depthLimit [] (w, before.length)).zip (x :: xs)) := by
  have hlong : ∀ stop ∈ stopsWithin depthLimit [before.length] w.metadata,
      1 < stop.place.length ∧ stop.place.getLast? = some before.length := by
    intro stop hstop
    obtain ⟨i, front, hplace⟩ := suffix_of_mem_stopsWithin hstop
    rw [← hplace]
    exact ⟨by simp, by simp⟩
  obtain ⟨hcurrent, hkinds⟩ := text_resolveAt before.length w s
  obtain ⟨⟨hmentions, _⟩, hpronouns⟩ :=
    pronouns_of_travel_inner (fun stop hstop => (hlong stop hstop).1) hinner
  refine ⟨?_, ?_, ?_⟩
  · have hnext := h.resolveAt horder hroom hresult
    unfold Noted at hnext ⊢
    rw [hmentions]
    exact hnext
  · have hlength := congrArg List.length hkinds
    simpa [hmentions] using hlength
  · unfold stopsAt
    rw [List.zip_cons_cons]
    refine List.forall_mem_cons.mpr ⟨?_, ?_⟩
    · intro hkind
      have hturned : Noted before { s with current := before.length } := h
      have hword := (result_of_pron hkind { s with current := before.length }).symm.trans hresult
      refine ⟨before.length, _, rfl, (Except.ok.inj hword).symm, ?_⟩
      rw [hgot]
      exact hturned.refers rfl
    · intro y hy hkind
      have hvisited : Noted before (Session.resolveAt before.length w s).session := by
        unfold Noted
        rw [hkinds, take_modify_self]
        exact h
      refine ⟨before.length, _, (hlong y.1 (List.of_mem_zip hy).1).2, hpronouns y hy hkind, ?_⟩
      rw [hgot]
      exact hvisited.refers hcurrent

/-- On the way through the wildcards of a prototype and their metadata every pronoun refers to one of
the wildcards before. -/
theorem referring_of_travel {ws : List Wildcard} {before : List (Wildcard × Option Element)}
    {s u : Session} {elements : List (Option Element)}
    (horder : Orderly first (stock c tier) s.books) (hnoted : Noted before s)
    (hroom : before.length + ws.length ≤ s.mentions.length) {stops : List Stop}
    (hstops : stops = (ws.zipIdx before.length).flatMap (stopsAt depthLimit []))
    (h : travel visit stops s = (.ok elements, u)) :
    Referring (before ++ outermost (stops.zip elements)) (stops.zip elements) := by
  induction ws generalizing before s elements stops with
  | nil =>
      subst hstops
      exact fun x hx => absurd hx List.not_mem_nil
  | cons w ws ih =>
      let stop : Stop := { place := [before.length], wildcard := w }
      let inner := stopsWithin depthLimit [before.length] w.metadata
      let rest := (ws.zipIdx (before.length + 1)).flatMap (stopsAt depthLimit [])
      obtain rfl : stops = stop :: (inner ++ rest) := hstops
      obtain ⟨x, others, hresult, hothers, rfl⟩ := travel_cons_eq_ok.mp h
      obtain ⟨xs, ys, t, hinner, hrest, rfl⟩ := travel_append_eq_ok.mp hothers
      have hlength : xs.length = inner.length := length_travel (by rw [hinner])
      have houter : outermost ((stop :: (inner ++ rest)).zip (x :: (xs ++ ys))) =
          (w, x) :: outermost (rest.zip ys) := outermost_block (x := (w, before.length)) hlength
      rw [List.length_cons] at hroom
      let got := before ++ (w, x) :: outermost (rest.zip ys)
      have hgot : got.take before.length = before := by simp [got]
      obtain ⟨hnotedNext, hmentions, hblock⟩ :=
        Noted.block (w := w) hnoted horder (by omega) hresult hinner hgot
      have horderVisit : Orderly first (stock c tier) (visit stop s).session.books := by
        rw [(sameTurn_visit rfl stop).books]
        exact horder.afterResolve w
      have hnext : (before ++ [(w, x)]).length = before.length + 1 := by simp
      have hafter := ih (horderVisit.travel hinner) hnotedNext (by omega) (by rw [hnext]) hrest
      rw [List.append_assoc] at hafter
      rw [houter]
      show Referring _ ((stop :: inner ++ rest).zip ((x :: xs) ++ ys))
      rw [List.zip_append (by simp [hlength])]
      exact List.forall_mem_append.mpr ⟨hblock, hafter⟩

/-! ## Tasks -/

/-- Of a task that comes about, whatever the session was called for before, every pronoun refers to one
of the wildcards of the prototype before it, or before the wildcard in whose metadata it stands: to the
nearest person by the gender of the entry that it got, else to the nearest that shows something. Inside
metadata it is the one that would stand in the place of the wildcard around it. The tokens are those for
what the wildcards got, and the metadata are filled with it. -/
theorem task_pronouns_refer (c : Catalog) (dice : Dice) (tier : Tier) (calls : List Call)
    (prototype : Text) (t : Task) (u : Session)
    (success : ((start c dice tier).after calls).task prototype = (.ok t, u)) :
    ∃ elements, (travel visit (itinerary prototype)
        (((start c dice tier).after calls).opened prototype)).1 = .ok elements ∧
      let visited := (itinerary prototype).zip elements
      visited.map Prod.fst = itinerary prototype ∧
        Rendered (Piece.ofSegments (Text.segments prototype)) (outermost visited) t.tokens ∧
        (∀ name, Names name visited → t.metadata = (taskLines name prototype).map .text) ∧
        (∀ x ∈ visited, x.1.wildcard.kind? = some .pron →
          ∃ k word, x.1.place.getLast? = some k ∧ x.2 = some (.pronoun word) ∧
            Refers ((outermost visited).take k) word) ∧
        ∀ x ∈ visited, ∀ y ∈ visited, x.1.wildcard.kind? = some .pron →
          y.1.wildcard.kind? = some .pron → x.1.place.getLast? = y.1.place.getLast? → x.2 = y.2 := by
  have horder := orderly_after c dice tier calls
  generalize (start c dice tier).after calls = s at horder success
  have hfollows : FollowsUnless (fun _ => True) _
      (travel visit (itinerary prototype) (s.opened prototype)) (s.task prototype) :=
    followsUnless_task (.inl trivial) horder (.inl trivial)
  rw [success] at hfollows
  rcases hjourney : travel visit (itinerary prototype) (s.opened prototype) with ⟨x, v⟩
  rw [hjourney] at hfollows
  cases hfollows with
  | @done elements _ _ _ _ hmade =>
      have hlength : elements.length = (itinerary prototype).length :=
        length_travel (by rw [hjourney])
      have hnoted : Noted [] (s.opened prototype) := .nil
      have hroom : ([] : List (Wildcard × Option Element)).length +
          (Text.wildcards prototype).length ≤ (s.opened prototype).mentions.length := by
        simp [opened]
      have horderOpened : Orderly (start c dice tier) (stock c tier) (s.opened prototype).books :=
        horder
      have hrefers := referring_of_travel horderOpened hnoted hroom rfl hjourney
      exact ⟨elements, rfl, List.map_fst_zip (by omega), hmade.1, hmade.2, hrefers,
        fun _ hx _ hy => hrefers.same hx hy⟩

/-- The person was met in a task before and is shown by a stand-in; the first pronoun stands in the
metadata of the person itself. -/
theorem task_pronouns_refer_reused :
    let c : Catalog :=
      { categories := [], gestures := [{ name := .text "waving".toList, tier := .easy }]
        locations := [], people := [{ name := .text "Eve".toList, gender := .female }]
        things := [], questions := [] }
    let s := (start c ⟨0⟩ .easy).after [.task "Meet {female}.".toList]
    let prototype : Text :=
      "Greet {female? meta: tell {pron} of {gesture}}, then follow {pron meta: past {pron}}.".toList
    ∃ t u elements, s.task prototype = (.ok t, u) ∧
      t.text? = some "Greet a person, then follow her.".toList ∧
      t.metadata.map Value.text? =
        ["tell them of waving".toList, "Eve".toList, "past her".toList].map some ∧
      (travel visit (itinerary prototype) (s.opened prototype)).1 = .ok elements ∧
      ∀ x ∈ (itinerary prototype).zip elements, x.1.wildcard.kind? = some .pron →
        ∃ k word, x.1.place.getLast? = some k ∧ x.2 = some (.pronoun word) ∧
          Refers ((outermost ((itinerary prototype).zip elements)).take k) word := by
  intro c s prototype
  have hrun : (s.task prototype).1.toOption.map (fun t => (t.text?, t.metadata.map Value.text?)) =
      some (some "Greet a person, then follow her.".toList,
        ["tell them of waving".toList, "Eve".toList, "past her".toList].map some) := by
    decide +kernel
  obtain ⟨t, u, htask, hshown⟩ := Run.exists_ok hrun
  obtain ⟨htext, hmetadata⟩ := Prod.mk.inj hshown
  obtain ⟨elements, htravel, _, _, _, hrefer, _⟩ :=
    task_pronouns_refer c ⟨0⟩ .easy [.task "Meet {female}.".toList] prototype t u htask
  exact ⟨t, u, elements, htask, htext, hmetadata, htravel, hrefer⟩

end Session

end Errand
