import Errand.Proofs.Session.Substitution
import Errand.Proofs.Wildcard.Balance

/-! # Metadata without a limit

Metadata is shorter than the wildcard that carries it, so reading it level by level comes to an end by
itself. There is one reader only that goes down to the last level, and a reader with a limit does as it
does where the limit is larger than the text is long.
-/

namespace Errand

namespace Session

open Wildcard

/-- The reader goes down through all levels of metadata, and no limit stops it. -/
def ReadsEveryLevel (reader : LineReader) : Prop :=
  ∀ t s, reader t s = (replaceText reader t s).map fun a => Text.metadataLines a.1 ++ a.2

theorem length_metadata_lt_of_mem {t : Text} {w : Wildcard} (h : .wildcard w ∈ Text.segments t) :
    w.metadata.length < t.length :=
  Nat.lt_of_lt_of_le (readIn_of_mem h).length_metadata_lt (readIn_of_mem h).source_isInfix.length_le

theorem replaceText_congr {reader other : LineReader} {t : Text}
    (h : ∀ u : Text, u.length < t.length → reader u = other u) :
    replaceText reader t = replaceText other t := by
  funext s
  rw [replaceText_eq, replaceText_eq, replaceSegments_congr]
  exact fun w hw s => congrFun (h w.metadata (length_metadata_lt_of_mem hw)) s

/-- More levels than the text has characters make no difference. -/
theorem metadataReader_of_length_lt {levels more : Nat} {t : Text} (h : t.length < levels)
    (hmore : t.length < more) : metadataReader levels t = metadataReader more t := by
  induction levels generalizing more t with
  | zero => exact absurd h (Nat.not_lt_zero _)
  | succ levels ih =>
      obtain ⟨more, rfl⟩ := Nat.exists_eq_succ_of_ne_zero (Nat.ne_zero_of_lt hmore)
      funext s
      rw [metadataReader_succ, metadataReader_succ, replaceText_congr]
      exact fun u hu => ih (by omega) (by omega)

def wholeReader : LineReader := fun t => metadataReader (t.length + 1) t

theorem readsEveryLevel_wholeReader : ReadsEveryLevel wholeReader := by
  intro t s
  unfold wholeReader
  rw [metadataReader_succ, replaceText_congr]
  exact fun u hu => metadataReader_of_length_lt hu (Nat.lt_succ_self _)

/-- By induction on the length of the text: a reader of all levels is settled by what it makes of
shorter texts. -/
theorem ReadsEveryLevel.unique {reader other : LineReader} (h : ReadsEveryLevel reader)
    (hother : ReadsEveryLevel other) : reader = other := by
  funext t
  induction hn : t.length using Nat.strongRecOn generalizing t with
  | ind n ih =>
      subst hn
      funext s
      rw [h t s, hother t s, replaceText_congr]
      exact fun u hu => ih u.length hu u rfl

end Session

namespace Wildcard

open Session

/-- Wherever a wildcard is read its metadata is shorter than its source. Where it is read at an opening
brace, as always in a text that is cut or replaced, the metadata is balanced, and reading inside does not
leave it. The same holds of every wildcard in the metadata, on any level, and each lies within it. So
metadata is read down to the last level without a limit, in one way, and a limit larger than the length
of the metadata makes no difference. -/
theorem readAt?_encloses_metadata {t : Text} {i : Nat} {w : Wildcard} {next : Int}
    (hread : readAt? t i = some (.wildcard w, next)) :
    w.metadata.length < w.source.length ∧
    (t[i]? = some '{' → Text.SelfContained w.metadata) ∧
    (∀ v : Wildcard, v.Nested w.metadata → Text.SelfContained v.metadata ∧
      v.metadata.length < v.source.length ∧ v.source <:+: w.metadata) ∧
    (∃! reader, ReadsEveryLevel reader) ∧
    ∀ reader, ReadsEveryLevel reader → ∀ levels, w.metadata.length < levels →
      metadataReader levels w.metadata = reader w.metadata := by
  refine ⟨(metadata_of_readAt? hread).2, ?_, ?_, ?_, ?_⟩
  · intro hopen
    have hin : w.ReadIn t := ⟨i, next, hopen, hread⟩
    exact hin.balanced_metadata.selfContained
  · intro v hv
    obtain ⟨hbalanced, hshorter, hinside⟩ := hv.enclosed
    exact ⟨hbalanced.selfContained, hshorter, hinside⟩
  · exact ⟨wholeReader, readsEveryLevel_wholeReader, fun _ h => h.unique readsEveryLevel_wholeReader⟩
  · intro reader hreader levels hlevels
    rw [hreader.unique readsEveryLevel_wholeReader]
    exact metadataReader_of_length_lt hlevels (Nat.lt_succ_self _)

/-- Braces before and behind the source and white space around its metadata have no part in it. -/
theorem readAt?_encloses_metadata_levels :
    ∃ w next, readAt? "\x7d{void meta:  see {void meta: {beacon}} }\x7b".toList 1 =
        some (.wildcard w, next) ∧
      w.metadata = "see {void meta: {beacon}}".toList ∧ Text.SelfContained w.metadata := by
  have hread : readAt? "\x7d{void meta:  see {void meta: {beacon}} }\x7b".toList 1 = some (.wildcard
      { source := "{void meta:  see {void meta: {beacon}} }".toList, index := 1
        name := "void".toList, type := none, id := none, obfuscated := false
        metadata := "see {void meta: {beacon}}".toList }, 41) := by decide +kernel
  exact ⟨_, _, hread, rfl, (readAt?_encloses_metadata (i := 1) hread).2.1 (by decide)⟩

end Wildcard

end Errand
