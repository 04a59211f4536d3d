import NetLiteral.Program
import NetLiteral.Proofs.Json

/-!
# Text and JSON output

The format of the output decides how results are shown and nothing else: a command ends in the same
way in both formats. The reports on inputs show the same texts in both, at the same inputs.
-/

namespace NetLiteral

/-! ## Outputs -/

namespace Emission

theorem stdout_cons (e : Emission) (es : List Emission) :
    stdout (e :: es) = e.outText ++ stdout es :=
  String.join_cons

theorem stderr_cons (line : Log.Record → String) (e : Emission) (es : List Emission) :
    stderr line (e :: es) = e.errText line ++ stderr line es :=
  String.join_cons

theorem stdout_singleton (text : String) : stdout [out text] = text := by
  rw [stdout_cons]
  exact String.append_empty

theorem stdout_append (es es' : List Emission) : stdout (es ++ es') = stdout es ++ stdout es' := by
  rw [stdout, List.map_append, String.join_append, stdout, stdout]

theorem stderr_append (line : Log.Record → String) (es es' : List Emission) :
    stderr line (es ++ es') = stderr line es ++ stderr line es' := by
  rw [stderr, List.map_append, String.join_append, stderr, stderr]

theorem stdout_map_record (records : List Log.Record) : stdout (records.map record) = "" := by
  induction records with
  | nil => rfl
  | cons r records ih =>
    rw [List.map_cons, stdout_cons, ih]
    rfl

theorem stderr_map_record (line : Log.Record → String) (records : List Log.Record) :
    stderr line (records.map record) = String.join (records.map line) := by
  rw [stderr, List.map_map]
  rfl

theorem filterMap_record?_map_record (records : List Log.Record) :
    (records.map record).filterMap record? = records := by
  rw [List.filterMap_map]
  exact List.filterMap_some

end Emission

/-! ## Results -/

namespace HostsReport

theorem value_printWith (write : Json → String) (output : OutputFormat) (r : HostsReport) :
    (printWith write output r).value = .ok () := by
  cases output <;> rfl

theorem value_run (output : OutputFormat) (text : String) (limit : Nat) :
    (run output text limit).value = (of text limit).value.map fun _ => () := by
  rw [run, Transcript.value_bind, Transcript.ofLogged]
  cases (of text limit).value with
  | ok r => exact value_printWith Json.pretty output r
  | error e => rfl

end HostsReport

namespace LookupReport

/-- What printing a report ends in. -/
def result (r : LookupReport) : Except CommandError Unit :=
  if r.route.isSome then .ok () else .error (.noRoute r.address)

theorem value_printWith (write : Json → String) (output : OutputFormat) (r : LookupReport) :
    (printWith write output r).value = r.result := by
  cases output <;> rfl

theorem value_run (output : OutputFormat) (address : String) (routes : List String) :
    (run output address routes).value = (of address routes).value.bind result := by
  rw [run, Transcript.value_bind, Transcript.ofLogged]
  cases (of address routes).value with
  | ok r => exact value_printWith Json.pretty output r
  | error e => rfl

end LookupReport

namespace ParseReport

variable {kind : Kind} {input : String} {inputs : List String} {write : Json → String}
  {output : OutputFormat}

theorem value_of (kind : Kind) (input : String) :
    (of kind input).value = ⟨input, kind, (kind.canonical input).value⟩ := by
  rw [of, Logged.value_bind]
  cases (kind.canonical input).value <;> rfl

/-- The reports on inputs of a kind. -/
def reports (kind : Kind) (inputs : List String) : List ParseReport :=
  inputs.map fun input => ⟨input, kind, (kind.canonical input).value⟩

/-- The records of reading inputs of a kind. -/
def records (kind : Kind) (inputs : List String) : List Log.Record :=
  inputs.flatMap fun input => (of kind input).log

theorem collect_of (kind : Kind) (inputs : List String) :
    Logged.collect (inputs.map (of kind)) = ⟨reports kind inputs, records kind inputs⟩ := by
  rw [Logged.collect, List.map_map, List.flatMap_map, reports]
  congr 1
  exact List.map_congr_left fun input _ => value_of kind input

/-- How many inputs have no canonical text. -/
def failures (kind : Kind) (inputs : List String) : Nat :=
  inputs.countP fun input => !(kind.canonical input).value.isOk

theorem countP_isFailed (kind : Kind) (inputs : List String) :
    (reports kind inputs).countP isFailed = failures kind inputs := by
  rw [reports, List.countP_map, failures]
  congr 1
  funext input
  rw [Function.comp_apply, isFailed]
  cases (kind.canonical input).value <;> rfl

theorem value_runWith (write : Json → String) (output : OutputFormat) (kind : Kind)
    (inputs : List String) : (runWith write output kind inputs).value =
      if 0 < failures kind inputs then .error (.inputsRejected (failures kind inputs) inputs.length)
      else .ok () := by
  have hlength : (reports kind inputs).length = inputs.length := List.length_map _
  rw [← countP_isFailed, ← hlength, runWith, collect_of]
  rfl

theorem emissions_runWith (write : Json → String) (output : OutputFormat) (kind : Kind)
    (inputs : List String) : (runWith write output kind inputs).emissions =
      (records kind inputs).map .record ++
        (printWith write output (reports kind inputs)).emissions := by
  rw [runWith, collect_of, Transcript.emissions_bind, Transcript.emissions_bind,
    Transcript.emissions_pure, List.append_nil]
  rfl

theorem failures_pos_iff :
    0 < failures kind inputs ↔ ∃ input ∈ inputs, ∃ e, (kind.canonical input).value = .error e := by
  rw [failures, List.countP_pos_iff]
  constructor
  · rintro ⟨input, hmem, hfails⟩
    cases h : (kind.canonical input).value with
    | ok text => rw [h] at hfails; cases hfails
    | error e => exact ⟨input, hmem, e, h⟩
  · rintro ⟨input, hmem, e, h⟩
    exact ⟨input, hmem, by rw [h]; rfl⟩

/-! ## Texts of the reports -/

/-- Inputs of a kind with the items of the JSON output and the texts on the two outputs that stand
for them: a canonical text is an item and a line, and so is the message of a failure, after the
input that it is about. -/
inductive Shown (kind : Kind) : List String → List Json → String → String → Prop
  | nil : Shown kind [] [] "" ""
  | accepted {input text inputs items out err}
    (h : (kind.canonical input).value = .ok text) (rest : Shown kind inputs items out err) :
    Shown kind (input :: inputs)
      (.obj [("input", .str input), ("kind", .str kind.name), ("canonical", .str text)] :: items)
      (text ++ "\n" ++ out) err
  | rejected {input e inputs items out err}
    (h : (kind.canonical input).value = .error e) (rest : Shown kind inputs items out err) :
    Shown kind (input :: inputs)
      (.obj [("input", .str input), ("kind", .str kind.name), ("error", .str e.message)] :: items)
      out (input ++ ": " ++ e.message ++ "\n" ++ err)

/-- The messages among what is put out, without the log. -/
def messages (es : List Emission) : String :=
  Emission.stderr (fun _ => "") es

theorem reports_cons (kind : Kind) (input : String) (inputs : List String) :
    reports kind (input :: inputs) =
      ⟨input, kind, (kind.canonical input).value⟩ :: reports kind inputs :=
  rfl

theorem shown_reports (kind : Kind) (inputs : List String) :
    Shown kind inputs ((reports kind inputs).map toJson)
      (Emission.stdout ((reports kind inputs).map toLine))
      (messages ((reports kind inputs).map toLine)) := by
  induction inputs with
  | nil => exact .nil
  | cons input inputs ih =>
    -- Each report puts something out on one of the two outputs only.
    rw [messages] at ih ⊢
    rw [reports_cons, List.map_cons, List.map_cons, Emission.stdout_cons, Emission.stderr_cons]
    cases h : (kind.canonical input).value with
    | ok text =>
      have herr : (toLine ⟨input, kind, .ok text⟩).errText (fun _ => "") = "" := rfl
      rw [herr, String.empty_append]
      exact .accepted h ih
    | error e =>
      have hout : (toLine ⟨input, kind, .error e⟩).outText = "" := rfl
      rw [hout, String.empty_append]
      exact .rejected h ih

theorem stderr_map_toLine (line : Log.Record → String) (rs : List ParseReport) :
    Emission.stderr line (rs.map toLine) = messages (rs.map toLine) := by
  rw [messages, Emission.stderr, Emission.stderr, List.map_map, List.map_map]
  refine congrArg String.join (List.map_congr_left fun r _ => ?_)
  rw [Function.comp_apply, Function.comp_apply, toLine]
  cases r.outcome <;> rfl

theorem filterMap_record?_printWith (write : Json → String) (output : OutputFormat)
    (rs : List ParseReport) :
    (printWith write output rs).emissions.filterMap Emission.record? = [] := by
  cases output with
  | json => rfl
  | text =>
    rw [List.filterMap_eq_nil_iff]
    intro e he
    obtain ⟨r, -, rfl⟩ := List.mem_map.mp he
    rw [toLine]
    cases r.outcome <;> rfl

/-! ## Outputs of a run -/

theorem log_runWith (write : Json → String) (output : OutputFormat) (kind : Kind)
    (inputs : List String) : (runWith write output kind inputs).log = records kind inputs := by
  rw [Transcript.log, emissions_runWith, List.filterMap_append,
    Emission.filterMap_record?_map_record, filterMap_record?_printWith, List.append_nil]

theorem stdout_runWith (write : Json → String) (output : OutputFormat) (kind : Kind)
    (inputs : List String) : Emission.stdout (runWith write output kind inputs).emissions =
      Emission.stdout (printWith write output (reports kind inputs)).emissions := by
  rw [emissions_runWith, Emission.stdout_append, Emission.stdout_map_record, String.empty_append]

theorem stderr_runWith (line : Log.Record → String) (write : Json → String)
    (output : OutputFormat) (kind : Kind) (inputs : List String) :
    Emission.stderr line (runWith write output kind inputs).emissions =
      String.join ((runWith write output kind inputs).log.map line) ++
        Emission.stderr line (printWith write output (reports kind inputs)).emissions := by
  rw [emissions_runWith, Emission.stderr_append, Emission.stderr_map_record, log_runWith]

theorem value_runWith_eq_ok_iff : (runWith write output kind inputs).value = .ok () ↔
    ∀ input ∈ inputs, ∃ text, (kind.canonical input).value = .ok text := by
  have hnone : ¬0 < failures kind inputs ↔
      ∀ input ∈ inputs, ∃ text, (kind.canonical input).value = .ok text := by
    rw [failures_pos_iff]
    simp only [not_exists, not_and]
    refine forall₂_congr fun input _ => ?_
    cases (kind.canonical input).value <;> simp
  rw [value_runWith, ← hnone]
  by_cases h : 0 < failures kind inputs <;> simp [h]

theorem value_runWith_eq_error_iff {e : CommandError} :
    (runWith write output kind inputs).value = .error e ↔ 0 < failures kind inputs ∧
      e = .inputsRejected (failures kind inputs) inputs.length := by
  rw [value_runWith]
  by_cases h : 0 < failures kind inputs <;> simp [h, eq_comm]

/-- If values can be told from their texts, the JSON output is the text of one value only. -/
theorem stdout_runWith_json_eq_iff (hwrite : Function.Injective write) {items : List Json} :
    Emission.stdout (runWith write .json kind inputs).emissions = write (.arr items) ++ "\n" ↔
      items = (reports kind inputs).map toJson := by
  have hprint : Emission.stdout (printWith write .json (reports kind inputs)).emissions =
      write (.arr ((reports kind inputs).map toJson)) ++ "\n" := Emission.stdout_singleton _
  rw [stdout_runWith, hprint]
  constructor
  · intro h
    have htext := List.append_cancel_right (String.toList_append ▸ String.toList_append ▸
      congrArg String.toList h)
    cases hwrite (String.toList_inj.mp htext)
    rfl
  · rintro rfl
    rfl

theorem exists_shown_runWith (kind : Kind) (inputs : List String) : ∃ items out err,
    Shown kind inputs items out err ∧ ∀ write,
      Emission.stdout (runWith write .text kind inputs).emissions = out ∧
      (Function.Injective write → ∀ items',
        Emission.stdout (runWith write .json kind inputs).emissions =
          write (.arr items') ++ "\n" ↔ items' = items) ∧
      (∀ line, Emission.stderr line (runWith write .text kind inputs).emissions =
        String.join ((runWith write .text kind inputs).log.map line) ++ err) ∧
      (∀ line, Emission.stderr line (runWith write .json kind inputs).emissions =
        String.join ((runWith write .json kind inputs).log.map line)) := by
  refine ⟨_, _, _, shown_reports kind inputs, fun write => ?_⟩
  refine ⟨stdout_runWith write .text kind inputs,
    fun hwrite items' => stdout_runWith_json_eq_iff hwrite, ?_, ?_⟩
  · intro line
    rw [stderr_runWith, ← stderr_map_toLine line]
    rfl
  · intro line
    rw [stderr_runWith]
    exact String.append_empty

end ParseReport

theorem Program.value_runCommand (command : CommandLine.Command) (maxHosts : Nat)
    (output output' : OutputFormat) : (runCommand ⟨output, maxHosts⟩ command).value =
      (runCommand ⟨output', maxHosts⟩ command).value := by
  cases command with
  | parse kind inputs =>
    exact (ParseReport.value_runWith ..).trans (ParseReport.value_runWith ..).symm
  | hosts route limit => exact (HostsReport.value_run ..).trans (HostsReport.value_run ..).symm
  | lookup address routes =>
    exact (LookupReport.value_run ..).trans (LookupReport.value_run ..).symm

/-- Whatever writes the JSON forms, the format changes nothing about how a command ends. The reports
on inputs of a kind say that all of them have canonical texts, or how many do not. Both formats show
the same canonical texts and messages at the same inputs, in order: the text output as lines, the
JSON output as the items of the only value that has its text, if values can be told from their
texts. The program writes JSON in such a way. -/
theorem formats_show_the_same :
    (∀ (command : CommandLine.Command) (maxHosts : Nat) (output output' : OutputFormat),
      (Program.runCommand ⟨output, maxHosts⟩ command).value =
        (Program.runCommand ⟨output', maxHosts⟩ command).value) ∧
    (∀ write (output output' : OutputFormat) (r : HostsReport),
      (HostsReport.printWith write output r).value =
        (HostsReport.printWith write output' r).value) ∧
    (∀ write (output output' : OutputFormat) (r : LookupReport),
      (LookupReport.printWith write output r).value =
        (LookupReport.printWith write output' r).value) ∧
    (∀ write (output : OutputFormat) (kind : Kind) (inputs : List String),
      ((ParseReport.runWith write output kind inputs).value = .ok () ↔
        ∀ input ∈ inputs, ∃ text, (kind.canonical input).value = .ok text) ∧
      (∀ e, (ParseReport.runWith write output kind inputs).value = .error e ↔
        0 < ParseReport.failures kind inputs ∧
          e = .inputsRejected (ParseReport.failures kind inputs) inputs.length)) ∧
    (∀ failed total, (CommandError.inputsRejected failed total).chain =
      [toString failed ++ " of " ++ toString total ++ " inputs failed to parse"]) ∧
    (∀ (kind : Kind) (inputs : List String), ∃ items out err,
      ParseReport.Shown kind inputs items out err ∧ ∀ write,
        Emission.stdout (ParseReport.runWith write .text kind inputs).emissions = out ∧
        (Function.Injective write → ∀ items',
          Emission.stdout (ParseReport.runWith write .json kind inputs).emissions =
            write (.arr items') ++ "\n" ↔ items' = items) ∧
        (∀ line, Emission.stderr line (ParseReport.runWith write .text kind inputs).emissions =
          String.join ((ParseReport.runWith write .text kind inputs).log.map line) ++ err) ∧
        (∀ line, Emission.stderr line (ParseReport.runWith write .json kind inputs).emissions =
          String.join ((ParseReport.runWith write .json kind inputs).log.map line))) ∧
    Function.Injective Json.pretty ∧ ParseReport.run = ParseReport.runWith Json.pretty ∧
    HostsReport.print = HostsReport.printWith Json.pretty ∧
    LookupReport.print = LookupReport.printWith Json.pretty := by
  refine ⟨Program.value_runCommand, ?_, ?_, ?_, fun _ _ => rfl, ParseReport.exists_shown_runWith,
    fun _ _ => Json.pretty_injective, rfl, rfl, rfl⟩
  · intro write output output' r
    rw [HostsReport.value_printWith, HostsReport.value_printWith]
  · intro write output output' r
    rw [LookupReport.value_printWith, LookupReport.value_printWith]
  · intro write output kind inputs
    exact ⟨ParseReport.value_runWith_eq_ok_iff,
      fun e => ParseReport.value_runWith_eq_error_iff⟩

/-- An address and a text that is none, with the JSON form that the program writes. -/
theorem formats_show_the_same_pretty :
    Function.Injective Json.pretty ∧ ∃ items out err,
      ParseReport.Shown .ipv4 ["9.0.0.1", "9.0.0"] items out err ∧
      Emission.stdout (ParseReport.run .text .ipv4 ["9.0.0.1", "9.0.0"]).emissions = out ∧
      ∀ items', Emission.stdout (ParseReport.run .json .ipv4 ["9.0.0.1", "9.0.0"]).emissions =
        (Json.arr items').pretty ++ "\n" ↔ items' = items := by
  have hwrite : Function.Injective Json.pretty := fun _ _ => Json.pretty_injective
  obtain ⟨items, out, err, hshown, hrun⟩ :=
    formats_show_the_same.2.2.2.2.2.1 .ipv4 ["9.0.0.1", "9.0.0"]
  obtain ⟨hout, hitems, -, -⟩ := hrun Json.pretty
  exact ⟨hwrite, items, out, err, hshown, hout, hitems hwrite⟩

end NetLiteral
