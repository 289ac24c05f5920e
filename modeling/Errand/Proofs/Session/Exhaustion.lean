import Errand.Session.Work
import Errand.Proofs.Catalog.Loading

/-! # What stops a generation

A task on a prototype whose numbers can be read fails for want of an entry or because a name that is
not text was to be put into one. A catalog whose names are text leaves exhaustion alone, and then
everything that a finished task shows is text. Reading a folder sees to the rest but not to the names.
-/

namespace Errand

namespace Session

variable {c : Catalog} {tier : Tier} {first s u : Session} {prototype : Text}

/-- Nothing but exhaustion and a name that is not text stops a task. -/
theorem failure_of_task (horder : Orderly first (stock c tier) s.books)
    (hfit : Text.NumbersFit (depthLimit + 1) prototype) {e : Failure}
    (h : s.task prototype = (.error e, u)) :
    (∃ shortage, e = .exhausted shortage) ∨ e = .nameNotText ∧ ¬ c.NamesAreText := by
  have hunless (stuck : Failure → Prop) (named : stuck .nameNotText ∨ c.NamesAreText) :
      (∃ shortage, e = .exhausted shortage) ∨ stuck e := by
    have hfollows := followsUnless_task named horder (.inr hfit)
    rw [h] at hfollows
    generalize travel visit (itinerary prototype) (s.opened prototype) = journey at hfollows
    cases hfollows with
    | short => exact .inl ⟨_, rfl⟩
    | stuck _ _ he => exact .inr he
  by_cases named : c.NamesAreText
  · exact .inl ((hunless (fun _ => False) (.inr named)).resolve_right id)
  · exact (hunless (· = .nameNotText) (.inl rfl)).imp_right fun he => ⟨he, named⟩

theorem text_of_task (shows : c.ShowsText) (horder : Orderly first (stock c tier) s.books) {t : Task}
    (h : s.task prototype = (.ok t, u)) : ∃ text, t.text? = some text := by
  rw [task_eq (Text.wildcards?_eq_some (sized_of_task h))] at h
  obtain ⟨tokens, hwork, rfl⟩ := Run.map_eq_ok.mp h
  change work _ 0 (s.opened prototype) = _ at hwork
  have horderOpened : Orderly first (stock c tier) (s.opened prototype).books := horder
  obtain ⟨shown, htexts⟩ := text_of_work shows horderOpened hwork
  exact ⟨shown.flatten, by rw [Task.text?, htexts, concat?_map_text]⟩

theorem metadata_of_task (named : c.NamesAreText) (horder : Orderly first (stock c tier) s.books)
    (hfit : Text.NumbersFit (depthLimit + 1) prototype) {t : Task}
    (h : s.task prototype = (.ok t, u)) : ∃ lines : List Text, t.metadata = lines.map .text := by
  have hfollows := follows_task named horder hfit
  rcases hjourney : travel visit (itinerary prototype) (s.opened prototype) with ⟨journey, v⟩
  rw [h, hjourney] at hfollows
  cases hfollows with
  | @done elements _ _ _ _ hmade =>
      have htravel : (travel visit (itinerary prototype) (s.opened prototype)).1 = .ok elements := by
        rw [hjourney]
      obtain ⟨name, hname⟩ := exists_names_of_travel named (s := s.opened prototype) horder htravel
      exact ⟨taskLines name prototype, hmade name hname⟩

end Session

open Session

/-- A generation on the catalog of a folder stops for want of an entry, or because a name is not text;
the latter only if the folder holds such a name. If it holds none, a task that is finished has a text,
and all its metadata lines are text. -/
theorem generateTask_of_load (folder : Text) (files : Text → Found) (c : Catalog)
    (loaded : (Catalog.load folder files).result = .ok c) (dice : Dice) (tier : Tier)
    (prototype : Text) (fits : Text.NumbersFit (depthLimit + 1) prototype) :
    match (generateTask prototype c dice tier).1 with
    | .error e => (∃ shortage, e = .exhausted shortage) ∨ e = .nameNotText ∧ ¬ c.NamesAreText
    | .ok task => c.NamesAreText →
        (∃ text, task.text? = some text) ∧ ∃ lines : List Text, task.metadata = lines.map .text := by
  have horder : Orderly (start c dice tier) (stock c tier) (start c dice tier).books :=
    orderly_after c dice tier []
  change match ((start c dice tier).task prototype).1 with | .error e => _ | .ok task => _
  rcases htask : (start c dice tier).task prototype with ⟨e | task, u⟩
  · exact failure_of_task horder fits htask
  · intro named
    have shows := (Catalog.closed_of_load loaded).showsText named
    exact ⟨text_of_task shows horder htask, metadata_of_task named horder fits htask⟩

/-- What is shown and what is said in metadata come from the names of a folder. -/
theorem generateTask_of_load_texts :
    let prototype : Text := "{male 1}{void meta: {male 1} waits}".toList
    ∃ c task text lines,
      (Catalog.load [] (Catalog.onlyNames "\x7b\"male\": [\"Bob\"]\x7d".toList)).result = .ok c ∧
      c.NamesAreText ∧ Text.NumbersFit (depthLimit + 1) prototype ∧
      (generateTask prototype c ⟨0⟩ .easy).1 = .ok task ∧
      task.text? = some text ∧ task.metadata = List.map .text lines := by
  intro prototype
  have fits : Text.NumbersFit (depthLimit + 1) prototype := by decide +kernel
  have hrun : ((Value.read "\x7b\"male\": [\"Bob\"]\x7d".toList).toOption.bind fun v =>
      (Catalog.namesOf v).toOption.map fun people =>
        (people.all fun p => p.name.text?.isSome,
          (generateTask prototype { Catalog.empty with people } ⟨0⟩ .easy).1.toOption.isSome)) =
      some (true, true) := by decide +kernel
  obtain ⟨people, loaded, hpeople⟩ := Catalog.exists_load_onlyNames [] hrun
  obtain ⟨hnames, hmade⟩ := Prod.mk.inj hpeople
  have named : Catalog.NamesAreText { Catalog.empty with people } :=
    Catalog.namesAreText_of_people fun p hp =>
      Option.isSome_iff_exists.mp (List.all_eq_true.mp hnames p hp)
  have h := generateTask_of_load [] _ _ loaded ⟨0⟩ .easy prototype fits
  cases htask : (generateTask prototype { Catalog.empty with people } ⟨0⟩ .easy).1 with
  | error e => simp [htask, Except.toOption] at hmade
  | ok task =>
      rw [htask] at h
      obtain ⟨⟨text, htext⟩, lines, hlines⟩ := h named
      exact ⟨_, task, text, lines, loaded, named, fits, htask, htext, hlines⟩

/-- A number among the names of a folder is loaded as a name, and a generation fails when it is put
into a text. -/
theorem generateTask_of_load_number :
    let prototype : Text := "{void meta: {male}}".toList
    ∃ c, (Catalog.load [] (Catalog.onlyNames "\x7b\"male\": [7]\x7d".toList)).result = .ok c ∧
      Text.NumbersFit (depthLimit + 1) prototype ∧
      (generateTask prototype c ⟨0⟩ .easy).1 = .error .nameNotText := by
  intro prototype
  have fits : Text.NumbersFit (depthLimit + 1) prototype := by decide +kernel
  have hrun : ((Value.read "\x7b\"male\": [7]\x7d".toList).toOption.bind fun v =>
      (Catalog.namesOf v).toOption.map fun people =>
        match (generateTask prototype { Catalog.empty with people } ⟨0⟩ .easy).1 with
        | .error e => some e
        | .ok _ => none) = some (some .nameNotText) := by decide +kernel
  obtain ⟨people, loaded, hfails⟩ := Catalog.exists_load_onlyNames [] hrun
  refine ⟨_, loaded, fits, ?_⟩
  cases htask : (generateTask prototype { Catalog.empty with people } ⟨0⟩ .easy).1 with
  | error e =>
      rw [htask] at hfails
      rw [Option.some.inj hfails]
  | ok task =>
      rw [htask] at hfails
      cases hfails

end Errand
