import Errand.Proofs.Catalog.Loading
import Errand.Proofs.Random.Shuffle
import Errand.Proofs.Text.Lines

/-! # Tasks on one line

The lines that are read from metadata cannot be broken further, however deep the wildcards stand and
whatever is put in for them. Where no name in the catalog has a line feed, a prototype without one
becomes a task without one, in what its tokens show as well as in its metadata lines.
-/

namespace Errand

/-- The value is a text without a line feed. -/
def Value.OnOneLine (v : Value) : Prop := ∃ t, v = .text t ∧ '\n' ∉ t

def Catalog.NamesOnOneLine (c : Catalog) : Prop := ∀ k, ∀ e ∈ c.entities k, e.name.OnOneLine

theorem Catalog.NamesOnOneLine.namesAreText {c : Catalog} (h : c.NamesOnOneLine) :
    c.NamesAreText := by
  intro k e he
  obtain ⟨t, ht, _⟩ := h k e he
  exact ⟨t, ht⟩

namespace Session

/-! ## Lines read from metadata -/

variable {c : Catalog} {tier : Tier} {first s u : Session}

/-- Names are put in before a text is broken into lines, so that it does not matter what is in
them. -/
theorem unbroken_of_mem_linesIn {name : List Nat → Text} {levels : Nat} {around : List Nat}
    {text line : Text} (h : line ∈ linesIn name levels around text) : line.Unbroken := by
  induction levels generalizing around text with
  | zero => exact Text.unbroken_of_mem_metadataLines line h
  | succ levels ih =>
      rcases List.mem_append.mp h with hown | hinner
      · exact Text.unbroken_of_mem_metadataLines line hown
      · obtain ⟨⟨w, i⟩, _, hmem⟩ := List.mem_flatMap.mp hinner
        dsimp only at hmem
        split at hmem
        · exact absurd hmem List.not_mem_nil
        · exact ih hmem

/-- The metadata of a wildcard follow the stops in them, so that their lines are those of texts with
the names put in. -/
theorem unbroken_of_linesOf (named : c.NamesAreText) (horder : Orderly first (stock c tier) s.books)
    {levels : Nat} {w : Wildcard} {lines : List Text}
    (h : linesOf (metadataReader levels) w s = (.ok lines, u)) :
    ∀ line ∈ lines, line.Unbroken := by
  obtain ⟨stuck, hstuck⟩ : ∃ stuck : Failure → Prop, ∀ e, stuck e := ⟨fun _ => True, fun _ => trivial⟩
  have hreader : ReaderFollows stuck c tier first levels :=
    followsUnless_metadataReader (.inr named) levels
  have hfollows := followsUnless_linesOf hreader horder ⟨rfl, rfl, rfl⟩ w 0 [] (.inl (hstuck _))
  rw [h] at hfollows
  generalize hjourney : travel visit (stopsWithin levels [0] w.metadata) s = journey at hfollows
  cases hfollows with
  | done _ hmade =>
      obtain ⟨name, hname⟩ := exists_names_of_travel named horder (congrArg Prod.fst hjourney)
      intro line hline
      rw [hmade name hname] at hline
      unfold linesAt at hline
      split at hline
      · exact absurd hline List.not_mem_nil
      · exact unbroken_of_mem_linesIn hline

end Session

/-- A token is made of its piece. For a wildcard it has the lines that were read from the metadata
of the wildcard, and none of them can be broken further. -/
def Token.Lined (token : Token) : Piece → Prop
  | .literal t => token = .literal t
  | .wildcard w => ∃ element lines, token = Session.tokenOf w element lines ∧
      (∃ s u, Session.linesOf (Session.metadataReader Session.depthLimit) w s = (.ok lines, u)) ∧
        ∀ line ∈ lines, line.Unbroken

structure Token.OnOneLine (token : Token) : Prop where
  shown : token.shown.OnOneLine
  metadata : ∀ v ∈ token.metadata, v.OnOneLine

namespace Session

/-! ## What tokens show and tell -/

variable {c : Catalog} {tier : Tier} {first s : Session}

theorem onOneLine_of_displayed (plain : c.NamesOnOneLine) {w : Wildcard} (hsource : '\n' ∉ w.source)
    {v : Value} (h : Displayed c w v) : v.OnOneLine := by
  cases h with
  | source => exact ⟨w.source, rfl, hsource⟩
  | entity hmem => exact plain _ _ hmem
  | @words t hmem =>
      have hfeeds : fixedWords.all fun t => !t.contains '\n' := by decide
      exact ⟨t, rfl, by simpa using List.all_eq_true.mp hfeeds t hmem⟩

theorem displayed_tokenOf_of_closed (closed : c.Closed) (h : Orderly first (stock c tier) s.books)
    {w : Wildcard} {element : Option Element} (hresult : (resolve w s).result = .ok element)
    (lines : List Text) : Displayed c w (tokenOf w element lines).shown := by
  rcases displayed_tokenOf h hresult lines with
    hdisplayed | ⟨k, e, hmem, ⟨r, hr, hshown⟩ | ⟨d, hd, hshown⟩⟩
  · exact hdisplayed
  · rw [hshown]
    exact .entity (closed.room_mem hmem hr)
  · rw [hshown]
    exact .entity (closed.category_mem hmem hd)

theorem onOneLine_literal {t : Text} (h : '\n' ∉ t) : (Token.literal t).OnOneLine where
  shown := ⟨t, rfl, h⟩
  metadata := fun _ hv => absurd hv List.not_mem_nil

theorem onOneLine_tokenOf (plain : c.NamesOnOneLine) (closed : c.Closed)
    (h : Orderly first (stock c tier) s.books) {w : Wildcard} (hsource : '\n' ∉ w.source)
    {element : Option Element} (hresult : (resolve w s).result = .ok element) {lines : List Text}
    (hlines : ∀ line ∈ lines, line.Unbroken) : (tokenOf w element lines).OnOneLine where
  shown := onOneLine_of_displayed plain hsource
    (displayed_tokenOf_of_closed closed h hresult lines)
  metadata := by
    obtain ⟨name, hname, hfeed⟩ := onOneLine_of_displayed plain hsource (displayed_display h hresult)
    rw [metadata_tokenOf h hresult hname.symm lines, List.forall_mem_map]
    intro line hline
    refine ⟨line, rfl, ?_⟩
    rcases List.mem_append.mp hline with hread | hconcealed
    · exact (hlines line hread).noFeed
    · split at hconcealed
      · rwa [List.mem_singleton.mp hconcealed]
      · exact absurd hconcealed List.not_mem_nil

/-! ## Tasks -/

theorem lined_of_task (plain : c.NamesOnOneLine) (closed : c.Closed)
    (horder : Orderly first (stock c tier) s.books) {prototype : Text} (hfeed : '\n' ∉ prototype)
    {task : Task} {u : Session} (success : s.task prototype = (.ok task, u)) :
    List.Forall₂ Token.Lined task.tokens (Piece.ofSegments (Text.segments prototype)) ∧
      ∀ token ∈ task.tokens, token.OnOneLine := by
  have hsized := sized_of_task success
  have hwhole := (Piece.tile_ofSegments hsized).whole
  rw [task_eq (Text.wildcards?_eq_some hsized)] at success
  obtain ⟨tokens, hwork, rfl⟩ := Run.map_eq_ok.mp success
  have horderOpened : Orderly first (stock c tier) (s.opened prototype).books := horder
  have htokens : List.Forall₂ (fun token piece => token.Lined piece ∧
      ('\n' ∉ piece.source → token.OnOneLine)) tokens
        (Piece.ofSegments (Text.segments prototype)) := by
    refine forall₂_of_work (fun w _ h => Orderly.afterResolve h w)
      (fun _ => ⟨rfl, onOneLine_literal⟩) ?_ horderOpened hwork
    intro w s element lines horder hresult ⟨_, _, horderRead, hlines⟩
    have hunbroken := unbroken_of_linesOf plain.namesAreText horderRead hlines
    exact ⟨⟨element, lines, rfl, ⟨_, _, hlines⟩, hunbroken⟩,
      fun hsource => onOneLine_tokenOf plain closed horder hsource hresult hunbroken⟩
  refine ⟨htokens.imp fun _ _ h => h.1, ?_⟩
  obtain ⟨pairs, rfl, hpieces, hpairs⟩ := exists_pairs htokens
  rw [List.forall_mem_map]
  intro p hp
  refine (hpairs p hp).2 fun hmem => hfeed ?_
  rw [← hwhole, hpieces]
  exact List.mem_flatMap_of_mem (List.mem_map_of_mem hp) hmem

theorem concat?_of_onOneLine {vs : List Value} (h : ∀ v ∈ vs, v.OnOneLine) :
    ∃ t, Task.concat? vs = some t ∧ '\n' ∉ t := by
  induction vs with
  | nil => exact ⟨[], rfl, List.not_mem_nil⟩
  | cons v vs ih =>
      rw [List.forall_mem_cons] at h
      obtain ⟨text, rfl, hfeed⟩ := h.1
      obtain ⟨rest, hrest, hfeeds⟩ := ih h.2
      refine ⟨text ++ rest, by rw [concat?_cons, hrest]; rfl, ?_⟩
      simp [hfeed, hfeeds]

theorem text?_of_onOneLine {task : Task} (h : ∀ token ∈ task.tokens, token.OnOneLine) :
    ∃ t, task.text? = some t ∧ '\n' ∉ t :=
  concat?_of_onOneLine (List.forall_mem_map.mpr fun token hmem => (h token hmem).shown)

theorem metadata_of_onOneLine {task : Task} (h : ∀ token ∈ task.tokens, token.OnOneLine) :
    ∀ v ∈ task.metadata, v.OnOneLine :=
  List.forall_mem_flatMap.mpr fun token hmem => (h token hmem).metadata

end Session

end Errand
