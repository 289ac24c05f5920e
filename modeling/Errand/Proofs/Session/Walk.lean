import Errand.Proofs.Session.Run

/-! # Walks

A session walks through a text wildcard by wildcard, and at each of them through its metadata, level
by level. What can be said of a run that makes another once it can be said of both can be said of a
walk as soon as it can be said of a single resolution. What is said may tell of the wildcards that a
run comes to, unless it fails before, and of the moments at which it resolves them.
-/

namespace Errand

def Text.wildcards (t : Text) : List Wildcard := (Text.segments t).filterMap Segment.wildcard?

theorem Text.mem_wildcards {t : Text} {w : Wildcard} :
    w ∈ wildcards t ↔ .wildcard w ∈ segments t := by
  unfold wildcards
  rw [List.mem_filterMap]
  constructor
  · rintro ⟨segment, hsegment, heq⟩
    cases segment with
    | wildcard v => exact Option.some.inj heq ▸ hsegment
    | char c => cases heq
    | oversized => cases heq
  · exact fun h => ⟨_, h, rfl⟩

/-- The wildcards of a text and those in their metadata, on the first `levels` levels, depth
first. -/
def Text.wildcardsWithin : Nat → Text → List Wildcard
  | 0, _ => []
  | levels + 1, t => (wildcards t).flatMap fun w => w :: wildcardsWithin levels w.metadata

@[simp] theorem Text.wildcardsWithin_nil (levels : Nat) : wildcardsWithin levels [] = [] := by
  cases levels <;> rfl

def Piece.wildcard? : Piece → Option Wildcard
  | .wildcard w => some w
  | .literal _ => none

/-- A wildcard, and the session that resolves it. -/
structure Moment where
  wildcard : Wildcard
  session : Session

/-- What comes after a run, unless it fails. -/
def Run.further {α : Type} (run : Run α) (next : α → Session → List Moment) : List Moment :=
  match run with
  | (.error _, _) => []
  | (.ok a, s) => next a s

theorem Run.further_nil {α : Type} (run : Run α) : run.further (fun _ _ => []) = [] := by
  rcases run with ⟨_ | _, _⟩ <;> rfl

namespace Session

/-! ## The moments of a walk -/

def momentsInside (inner : Text → Session → List Moment) (w : Wildcard) (s : Session) :
    List Moment :=
  if w.metadata.isEmpty then [] else inner w.metadata s

def momentsOfSegments (reader : LineReader) (inner : Text → Session → List Moment) :
    List Segment → Session → List Moment
  | [], _ => []
  | .oversized :: _, _ => []
  | .char _ :: segments, s => momentsOfSegments reader inner segments s
  | .wildcard w :: segments, s =>
    { wildcard := w, session := s } :: (resolve w s).run.further fun _ s =>
      momentsInside inner w s ++ (linesOf reader w s).further fun _ s =>
        momentsOfSegments reader inner segments s

def momentsOfMetadata : Nat → Text → Session → List Moment
  | 0, _, _ => []
  | levels + 1, t, s =>
    momentsOfSegments (metadataReader levels) (momentsOfMetadata levels) (Text.segments t) s

def momentsOfPieces : List Piece → Nat → Session → List Moment
  | [], _, _ => []
  | .literal _ :: pieces, k, s => momentsOfPieces pieces k s
  | .wildcard w :: pieces, k, s =>
    let turned := { s with current := k }
    { wildcard := w, session := turned } :: (resolveAt k w s).run.further fun _ s =>
      momentsInside (momentsOfMetadata depthLimit) w s ++
        (linesOf (metadataReader depthLimit) w s).further fun _ s =>
          momentsOfPieces pieces (k + 1) s

end Session

/-! ## The rule -/

/-- A property of runs, of the wildcards they may come to and of their moments, that goes from runs to
the run which makes one after the other, and that resolutions have. -/
structure Run.Rule
    (P : {α : Type} → List Wildcard → (Session → Run α) → (Session → List Moment) → Prop) :
    Prop where
  done {α : Type} (a : α) : P [] (fun s => (.ok a, s)) fun _ => []
  failed {α : Type} (ws : List Wildcard) (e : Failure) :
    P ws (fun s => ((.error e, s) : Run α)) fun _ => []
  noted {α : Type} (a : α) (t : Text) :
    P [] (fun s => (.ok a, s.record (.nestedTooDeep t))) fun _ => []
  resolve (w : Wildcard) :
    P [w] (fun s => (Session.resolve w s).run) fun s => [{ wildcard := w, session := s }]
  bind {α β : Type} {ws vs : List Wildcard} {run : Session → Run α} {next : α → Session → Run β}
    {ms : Session → List Moment} {later : α → Session → List Moment} (hrun : P ws run ms)
    (hnext : ∀ a, P vs (next a) (later a)) :
    P (ws ++ vs) (fun s => (run s).bind next) fun s => ms s ++ (run s).further later

namespace Run.Rule

variable {P : {α : Type} → List Wildcard → (Session → Run α) → (Session → List Moment) → Prop}
  {α β : Type}

theorem finish (h : Rule P) {ws : List Wildcard} {run : Session → Run α}
    {ms : Session → List Moment} {next : α → Session → Run β} (hrun : P ws run ms)
    (hnext : ∀ a, P [] (next a) fun _ => []) : P ws (fun s => (run s).bind next) ms := by
  have hbind := h.bind hrun hnext
  simpa only [List.append_nil, Run.further_nil] using hbind

theorem map (h : Rule P) {ws : List Wildcard} {run : Session → Run α} {ms : Session → List Moment}
    (hrun : P ws run ms) (f : α → β) : P ws (fun s => (run s).map f) ms := by
  have hmap : (fun s => (run s).map f) = fun s => (run s).bind fun a s => (.ok (f a), s) := by
    funext s
    rcases run s with ⟨_ | _, _⟩ <;> rfl
  rw [hmap]
  exact h.finish hrun fun a => h.done (f a)

variable {reader : Session.LineReader} (within : Text → List Wildcard)
  (inner : Text → Session → List Moment)

theorem linesOf (h : Rule P) (hnil : within [] = [])
    (hreader : ∀ t, P (within t) (reader t) (inner t)) (w : Wildcard) :
    P (within w.metadata) (Session.linesOf reader w) (Session.momentsInside inner w) := by
  by_cases hempty : w.metadata.isEmpty = true
  · have hlines : Session.linesOf reader w = fun s => (.ok [], s) := by
      funext s
      exact if_pos hempty
    have hmoments : Session.momentsInside inner w = fun _ => [] := by
      funext s
      exact if_pos hempty
    rw [hlines, hmoments, List.isEmpty_iff.mp hempty, hnil]
    exact h.done []
  · have hlines : Session.linesOf reader w = reader w.metadata := by
      funext s
      exact if_neg hempty
    have hmoments : Session.momentsInside inner w = inner w.metadata := by
      funext s
      exact if_neg hempty
    rw [hlines, hmoments]
    exact hreader w.metadata

theorem replaceSegments (h : Rule P) (hnil : within [] = [])
    (hreader : ∀ t, P (within t) (reader t) (inner t)) (segments : List Segment) :
    P ((segments.filterMap Segment.wildcard?).flatMap fun w => w :: within w.metadata)
      (Session.replaceSegments reader segments)
      (Session.momentsOfSegments reader inner segments) := by
  induction segments with
  | nil => exact h.done ([], [])
  | cons segment segments ih =>
      cases segment with
      | oversized => exact h.failed _ .oversizedNumber
      | char char =>
          rw [funext (Session.replaceSegments_char reader char segments)]
          exact h.map ih _
      | wildcard w =>
          rw [funext (Session.replaceSegments_wildcard reader w segments)]
          refine h.bind (h.resolve w) fun element => ?_
          exact h.bind (h.linesOf within inner hnil hreader w) fun own => h.map ih _

theorem replaceText (h : Rule P) (hnil : within [] = [])
    (hreader : ∀ t, P (within t) (reader t) (inner t)) (t : Text) :
    P ((Text.wildcards t).flatMap fun w => w :: within w.metadata)
      (Session.replaceText reader t)
      (Session.momentsOfSegments reader inner (Text.segments t)) := by
  rw [funext (Session.replaceText_eq reader t)]
  refine h.finish (h.replaceSegments within inner hnil hreader (Text.segments t)) fun a => ?_
  cases Task.concat? a.1 with
  | none => exact h.failed [] .nameNotText
  | some text => exact h.done (text, a.2)

theorem metadataReader (h : Rule P) (levels : Nat) (t : Text) :
    P (t.wildcardsWithin levels) (Session.metadataReader levels t)
      (Session.momentsOfMetadata levels t) := by
  induction levels generalizing t with
  | zero => exact h.noted (Text.metadataLines t) t
  | succ levels ih =>
      rw [funext (Session.metadataReader_succ levels t)]
      exact h.map (h.replaceText _ _ (Text.wildcardsWithin_nil levels) ih t) _

theorem metadataLines (h : Rule P) (levels : Nat) (w : Wildcard) :
    P (w.metadata.wildcardsWithin levels) (Session.linesOf (Session.metadataReader levels) w)
      (Session.momentsInside (Session.momentsOfMetadata levels) w) :=
  h.linesOf _ _ (Text.wildcardsWithin_nil levels) (h.metadataReader levels) w

theorem work (h : Rule P)
    (hat : ∀ k w, P [w] (fun s => (Session.resolveAt k w s).run)
      fun s => [{ wildcard := w, session := { s with current := k } }])
    (pieces : List Piece) (k : Nat) :
    P ((pieces.filterMap Piece.wildcard?).flatMap fun w =>
        w :: w.metadata.wildcardsWithin Session.depthLimit)
      (Session.work pieces k) (Session.momentsOfPieces pieces k) := by
  induction pieces generalizing k with
  | nil => exact h.done []
  | cons piece pieces ih =>
      cases piece with
      | literal t =>
          rw [funext (Session.work_literal t pieces k)]
          exact h.map (ih k) _
      | wildcard w =>
          rw [funext (Session.work_wildcard w pieces k)]
          refine h.bind (hat k w) fun element => ?_
          exact h.bind (h.metadataLines _ w) fun lines => h.map (ih (k + 1)) _

end Run.Rule

end Errand
