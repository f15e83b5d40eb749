import ImpTree.Feedback.Json
import ImpTree.Proofs.Binary64.ReadBack
import ImpTree.Proofs.Feedback.Ranking
import ImpTree.Proofs.Json.Decoded

/-!
# Answers are read back

The text of an answer is read as the very same answer, whatever file names, messages and names it
holds, if the confidences of its suggestions are read back from their written forms.  All
confidences of suggestions against errors are tenths, and tenths come back.

* `Error.isTenths_of_mem` — the confidences of suggestions against errors.
* `Suggestion.readsAs_toJson`, `Report.readsAs_toJson`, `Feedback.readsAs_toJson` — the documents,
  part by part.
* `Feedback.parse?_text` — answers whose confidences come back.
* `Feedback.answers_read_back` — **the answers to checks and runs.**
-/

namespace ImpTree

open Json

/-! ## Suggestions -/

namespace Suggestion

/-- The confidence is a number of tenths. -/
def IsTenths (s : Suggestion) : Prop := ∃ k < 10, s.confidence = .nearest false k 10

@[simp]
theorem isTenths_tenths {k : Nat} (message : String) (hk : k < 10) :
    (tenths k message).IsTenths :=
  ⟨k, hk, rfl⟩

theorem IsTenths.comesBack {s : Suggestion} (h : s.IsTenths) : s.confidence.ComesBack := by
  obtain ⟨k, hk, hconfidence⟩ := h
  rw [hconfidence]
  exact Binary64.comesBack_tenth hk

end Suggestion

/-- The confidences of all suggestions against an error are tenths. -/
theorem Error.isTenths_of_mem {e : Error} : ∀ s ∈ e.suggestions, s.IsTenths := by
  cases e with
  | unknownType name span =>
    cases hknown : misspelledBuiltin? name <;> simp [suggestions, hknown]
  | typeMismatch expected got span =>
    simp only [suggestions]
    split_ifs <;> simp
  | _ => simp [suggestions]

/-- So are those in the report of an error. -/
theorem Report.isTenths_of_mem (e : Error) (file : String) :
    ∀ s ∈ (Report.ofError e file).suggestions, s.IsTenths := by
  intro s hs
  exact Error.isTenths_of_mem s ((perm_sorted _).mem_iff.1 hs)

/-! ## Documents -/

/-- A place is read with its two offsets. -/
theorem Location.readsAs_offsets {start stop : Json} {l : Location}
    (hstart : start.uint64? = some l.start) (hstop : stop.uint64? = some l.stop)
    (hplain : start.depth = 0 ∧ stop.depth = 0) :
    (record [("file", .text l.file), ("start", start), ("end", stop)]).ReadsAs
      Location.decode l := by
  refine readsAs_record ["file", "start", "end"] [.text l.file, start, stop] 3 (by decide) rfl
    (fun _ => rfl) fun n j hfields => ?_
  rw [Location.decode, hfields]
  simp [hstart, hstop, hplain]

/-- A place is read back. -/
theorem Location.readsAs_toJson (l : Location) : l.toJson.ReadsAs Location.decode l :=
  readsAs_offsets (uint64?_nat l.start) (uint64?_nat l.stop) ⟨rfl, rfl⟩

/-- A suggestion is read back if its confidence comes back. -/
theorem Suggestion.readsAs_toJson {s : Suggestion} (h : s.confidence.ComesBack) :
    s.toJson.ReadsAs Suggestion.decode s := by
  refine readsAs_record ["message", "confidence"]
    [.text s.message, .number s.confidence.numeral] 2 (by decide) rfl (fun _ => rfl)
    fun n j hfields => ?_
  rw [Suggestion.decode, hfields]
  simp [Binary64.decode, h.ofNumeral?_eq]

@[simp]
theorem Severity.decode_text (n : Nat) (severity : Severity) :
    Severity.decode n (.text severity.text) = some severity := by
  cases severity
  simp [Severity.decode]

@[simp]
theorem Phase.decode_text (n : Nat) (phase : Phase) :
    Phase.decode n (.text phase.text) = some phase := by
  cases phase <;> simp [Phase.decode, Phase.text]

/-- A report is read back if the confidences of its suggestions come back. -/
theorem Report.readsAs_toJson {r : Report} (h : ∀ s ∈ r.suggestions, s.confidence.ComesBack) :
    r.toJson.ReadsAs Report.decode r := by
  refine readsAs_record ["code", "severity", "phase", "message", "location", "suggestions"]
    [.text r.code, .text r.severity.text, .text r.phase.text, .text r.message,
      .option Location.toJson r.location, .list (r.suggestions.map Suggestion.toJson)] 6 (by decide)
    rfl (fun _ => rfl) fun n j hfields => ?_
  have hlocation := optional_option Location.readsAs_toJson (fun _ => Json.noConfusion) r.location n
  have hsuggestions := readsAs_listOf_of_mem
    (fun s hs => Suggestion.readsAs_toJson (h s hs)) n
  rw [List.map_id'] at hsuggestions
  rw [Report.decode, hfields]
  simp [hlocation, hsuggestions, ite_and]

/-- An exit status that may be missing is read back. -/
theorem Json.optional_exitCode (exitCode : Option Int32) :
    optional int32? (some (option (fun code : Int32 => int code.toInt) exitCode)) =
      some exitCode := by
  cases exitCode with
  | none => rfl
  | some code =>
    rw [option, optional_of_ne_null Json.noConfusion, int32?_int]
    rfl

theorem Json.depth_exitCode (exitCode : Option Int32) :
    (option (fun code : Int32 => int code.toInt) exitCode).depth = 0 := by
  cases exitCode <;> rfl

namespace Feedback

/-- An answer is read back if all confidences come back. -/
theorem readsAs_toJson {f : Feedback}
    (h : ∀ r ∈ f.diagnostics, ∀ s ∈ r.suggestions, s.confidence.ComesBack) :
    f.toJson.ReadsAs Feedback.decodeWithin f := by
  refine readsAs_record ["success", "source_file", "diagnostics", "exit_code"]
    [.bool f.success, .text f.sourceFile, .list (f.diagnostics.map Report.toJson),
      .option (fun code : Int32 => .int code.toInt) f.exitCode] 4 (by decide) rfl (fun _ => rfl)
    fun n j hfields => ?_
  have hdiagnostics := readsAs_listOf_of_mem (fun r hr => Report.readsAs_toJson (h r hr)) n
  rw [List.map_id'] at hdiagnostics
  rw [Feedback.decodeWithin, hfields]
  simp [hdiagnostics, optional_exitCode, depth_exitCode]

/-- The document of an answer is a document that is read back. -/
theorem isProper_toJson {f : Feedback}
    (h : ∀ r ∈ f.diagnostics, ∀ s ∈ r.suggestions, s.confidence.ComesBack) :
    f.toJson.IsProper := by
  have hreport : ∀ r ∈ f.diagnostics, r.toJson.IsProper := by
    intro r hr
    have hsuggestion : ∀ s ∈ r.suggestions, s.toJson.IsProper := by
      intro s hs
      simp [Suggestion.toJson, (h r hr s hs).isProper]
    simpa [Report.toJson, Location.toJson] using hsuggestion
  simpa [Feedback.toJson] using hreport

/-- At most five brackets of an answer are nested. -/
theorem depth_toJson_le (f : Feedback) : f.toJson.depth ≤ 5 := by
  have hlocation : ∀ l : Location, l.toJson.depth ≤ 1 := by
    intro l
    simp [Location.toJson, depth_record_le]
  have hsuggestion : ∀ s : Suggestion, s.toJson.depth ≤ 1 := by
    intro s
    simp [Suggestion.toJson, depth_record_le]
  have hsuggestions : ∀ r : Report, (list (r.suggestions.map Suggestion.toJson)).depth ≤ 2 := by
    intro r
    simpa [depth_list_le] using fun s _ => hsuggestion s
  have hreport : ∀ r : Report, r.toJson.depth ≤ 3 := by
    intro r
    have hplace : (option Location.toJson r.location).depth ≤ 2 := by
      cases r.location with
      | none => simp [option]
      | some l => exact (hlocation l).trans (by decide)
    simp [Report.toJson, depth_record_le, hplace, hsuggestions r]
  have hreports : (list (f.diagnostics.map Report.toJson)).depth ≤ 4 := by
    simpa [depth_list_le] using fun r _ => hreport r
  simp [Feedback.toJson, depth_record_le, hreports, depth_exitCode]

/-- **The text of an answer is read back** if all confidences come back. -/
theorem parse?_text {f : Feedback}
    (h : ∀ r ∈ f.diagnostics, ∀ s ∈ r.suggestions, s.confidence.ComesBack) :
    Feedback.parse? f.text = some f := by
  have hjson : Json.parse? f.text = some f.toJson := parse?_pretty (isProper_toJson h)
  have hdepth : f.toJson.depth ≤ maxDepth := (depth_toJson_le f).trans (by decide)
  rw [Feedback.parse?, hjson, Option.bind_eq_bind, Option.bind_some, Feedback.decode,
    readsAs_toJson h maxDepth, if_pos hdepth]

/-- **The answers to checks and runs are read back.**  For every file name and every error the
text of the answer that reports the error is read as this very answer: with its code, its phase, its
message, the place, and the same suggestions in the same order, each with its confidence.  So is,
for every file name and every exit status, given or missing, the text of the answer that all went
well.  Messages and names may hold any characters. -/
theorem answers_read_back :
    (∀ (file : String) (e : Error),
      Feedback.parse? (Feedback.failure file e).text = some (Feedback.failure file e)) ∧
    ∀ (file : String) (exitCode : Option Int32),
      Feedback.parse? (Feedback.ofExit file exitCode).text =
        some (Feedback.ofExit file exitCode) := by
  constructor
  · intro file e
    -- the one report of such an answer is that of the error
    refine parse?_text fun r hr s hs => ?_
    obtain rfl := List.mem_singleton.1 hr
    exact (Report.isTenths_of_mem e file s hs).comesBack
  · intro file exitCode
    exact parse?_text fun r hr => absurd hr List.not_mem_nil

end Feedback

end ImpTree
