import Mathlib.Data.List.Nodup
import NetLiteral.Proofs.Numeral
import NetLiteral.Program

/-!
# Precedence of settings

A setting is given as a text by the environment or by an entry of the settings file. Its value is
that of the first of these texts, in this order, that is a value of the setting at all. Each setting
is decided on its own, in whatever order the entries come, and only flags count more.
-/

namespace NetLiteral

/-! ## Entries -/

namespace Entries

variable {es es' : Entries} {key text : String}

theorem lookup_eq_some_iff {l : List (String × String)} (h : (l.map Prod.fst).Nodup) :
    l.lookup key = some text ↔ (key, text) ∈ l := by
  induction l with
  | nil => simp
  | cons e l ih =>
    obtain ⟨key', text'⟩ := e
    obtain ⟨hkey', hl⟩ := List.nodup_cons.mp h
    rw [List.lookup_cons, List.mem_cons]
    by_cases hkey : key = key'
    · subst hkey
      have hnot : (key, text) ∉ l := fun hmem => hkey' (List.mem_map.mpr ⟨_, hmem, rfl⟩)
      simp [hnot, eq_comm]
    · rw [beq_false_of_ne hkey, ih hl]
      simp [hkey]

theorem get?_eq_some_iff : es.get? key = some text ↔ (key, text) ∈ es.toList :=
  lookup_eq_some_iff es.nodup_keys

theorem get?_eq_of_perm (h : es.toList.Perm es'.toList) (key : String) :
    es.get? key = es'.get? key := by
  apply Option.ext
  intro text
  rw [get?_eq_some_iff, get?_eq_some_iff, h.mem_iff]

def filter (p : String × String → Bool) (es : Entries) : Entries where
  toList := es.toList.filter p
  nodup_keys := es.nodup_keys.sublist (List.filter_sublist.map Prod.fst)

theorem get?_filter (p : String × String → Bool) (es : Entries) (key : String) :
    (es.filter p).get? key = (es.get? key).filter fun text => p (key, text) := by
  apply Option.ext
  intro text
  rw [Option.filter_eq_some_iff, get?_eq_some_iff, get?_eq_some_iff]
  exact List.mem_filter

end Entries

/-- The text that a settings file has for a key. -/
def SettingsFile.get? (key : String) : SettingsFile → Option String
  | .found entries => entries.get? key
  | _ => none

/-! ## Settings -/

/-- The format that a text names, if any. -/
def OutputFormat.ofString? (s : String) : Option OutputFormat :=
  (ofString s).toOption

theorem OutputFormat.ofString?_eq_some_iff {s : String} {o : OutputFormat} :
    ofString? s = some o ↔ Text.lower s = o.name := by
  have hne : text.name ≠ json.name := by decide
  rw [ofString?, ofString]
  by_cases htext : Text.lower s = text.name
  · cases o <;> simp [htext, hne, Except.toOption]
  · by_cases hjson : Text.lower s = json.name
    · cases o <;> simp [hjson, hne.symm, Except.toOption]
    · cases o <;> simp [htext, hjson, Except.toOption]

/-- A setting: its key in a settings file, its text in an environment, the values that texts stand
for, and its place among the settings. -/
structure Setting (α : Type) where
  key : String
  given : Environment → Option String
  read? : String → Option α
  get : Settings → α

namespace Setting

variable {α : Type}

def output : Setting OutputFormat :=
  ⟨Settings.outputKey, Environment.output, OutputFormat.ofString?, Settings.output⟩

def maxHosts : Setting Nat :=
  ⟨Settings.maxHostsKey, Environment.maxHosts, Numeral.word?, Settings.maxHosts⟩

/-- The value that a text gives a setting; a text that is no value of it gives none. -/
def value? (t : Setting α) (text : Option String) : Option α :=
  text.bind t.read?

/-- The environment decides a setting, then the file, and then its standard value. -/
def decided (t : Setting α) (file : SettingsFile) (env : Environment) : α :=
  (t.value? (t.given env) <|> t.value? (file.get? t.key)).getD (t.get .standard)

end Setting

/-! ## Steps of loading -/

namespace Settings

theorem outputKey_ne_maxHostsKey : outputKey ≠ maxHostsKey := by
  decide

theorem output_applyEntry (s : Settings) (e : String × String) : (s.applyEntry e).value.output =
    if e.1 = outputKey then (OutputFormat.ofString? e.2).getD s.output else s.output := by
  rw [applyEntry]
  split
  · rw [OutputFormat.ofString?]
    cases OutputFormat.ofString e.2 <;> rfl
  · split
    · cases Numeral.word? e.2 <;> rfl
    · rfl

theorem maxHosts_applyEntry (s : Settings) (e : String × String) :
    (s.applyEntry e).value.maxHosts =
      if e.1 = maxHostsKey then (Numeral.word? e.2).getD s.maxHosts else s.maxHosts := by
  rw [applyEntry]
  split
  next hkey =>
    rw [if_neg (hkey ▸ outputKey_ne_maxHostsKey)]
    cases OutputFormat.ofString e.2 <;> rfl
  next =>
    split
    · cases Numeral.word? e.2 <;> rfl
    · rfl

theorem value_withOutput (text : Option String) (s : Settings) : (s.withOutput text).value =
    { s with output := (Setting.output.value? text).getD s.output } := by
  cases text with
  | none => rfl
  | some text =>
    have hvalue : Setting.output.value? (some text) = (OutputFormat.ofString text).toOption := rfl
    rw [withOutput, Option.map_some, hvalue]
    cases OutputFormat.ofString text <;> rfl

theorem value_withMaxHosts (text : Option String) (s : Settings) : (s.withMaxHosts text).value =
    { s with maxHosts := (Setting.maxHosts.value? text).getD s.maxHosts } := by
  rw [withMaxHosts, Setting.value?, Setting.maxHosts]
  cases text.bind Numeral.word? <;> rfl

theorem value_withEnvironment (env : Environment) (s : Settings) :
    (s.withEnvironment env).value =
      ⟨(Setting.output.value? env.output).getD s.output,
        (Setting.maxHosts.value? env.maxHosts).getD s.maxHosts⟩ := by
  rw [withEnvironment, Logged.value_bind, value_withMaxHosts, value_withOutput]

end Settings

namespace Setting

variable {α : Type} {t : Setting α}

/-- A step of loading gives a setting the value of a text that is meant for it, if the text is a
value of it, and leaves it alone otherwise. -/
structure IsLoaded (t : Setting α) : Prop where
  get_applyEntry : ∀ (s : Settings) (e : String × String),
    t.get (s.applyEntry e).value = if e.1 = t.key then (t.read? e.2).getD (t.get s) else t.get s
  get_withEnvironment : ∀ (env : Environment) (s : Settings),
    t.get (s.withEnvironment env).value = (t.value? (t.given env)).getD (t.get s)

theorem output_isLoaded : output.IsLoaded := by
  refine ⟨Settings.output_applyEntry, fun env s => ?_⟩
  rw [Settings.value_withEnvironment]
  rfl

theorem maxHosts_isLoaded : maxHosts.IsLoaded := by
  refine ⟨Settings.maxHosts_applyEntry, fun env s => ?_⟩
  rw [Settings.value_withEnvironment]
  rfl

/-- Of entries with different keys, only the one for a setting counts for it. -/
theorem IsLoaded.get_foldlM (h : t.IsLoaded) {es : List (String × String)}
    (hes : (es.map Prod.fst).Nodup) (s : Settings) :
    t.get (es.foldlM Settings.applyEntry s).value =
      (t.value? (es.lookup t.key)).getD (t.get s) := by
  induction es generalizing s with
  | nil => rfl
  | cons e es ih =>
    obtain ⟨key, text⟩ := e
    obtain ⟨hkey, hes⟩ := List.nodup_cons.mp hes
    rw [List.foldlM_cons, Logged.value_bind, ih hes, h.get_applyEntry, List.lookup_cons]
    by_cases heq : key = t.key
    · subst heq
      -- No later entry has the key again, so the value read here stays.
      have hnone : es.lookup t.key = none := by
        rw [List.lookup_eq_none_iff]
        intro e he
        exact bne_iff_ne.mpr fun heq => hkey (List.mem_map.mpr ⟨e, he, heq.symm⟩)
      rw [hnone]
      simp [value?]
    · rw [if_neg heq, beq_false_of_ne (Ne.symm heq)]

theorem IsLoaded.get_applyFile (h : t.IsLoaded) (path : String) (s : Settings)
    (file : SettingsFile) :
    t.get (s.applyFile path file).value = (t.value? (file.get? t.key)).getD (t.get s) := by
  cases file with
  | missing => rfl
  | broken problem => rfl
  | found entries =>
    rw [Settings.applyFile, Logged.value_bind, Logged.value_bind, Logged.value_pure]
    exact h.get_foldlM entries.nodup_keys s

/-- Nothing but the texts for a setting decides it. -/
theorem IsLoaded.get_load (h : t.IsLoaded) (path : String) (file : SettingsFile)
    (env : Environment) : t.get (Settings.load path file env).value = t.decided file env := by
  rw [Settings.load, Logged.value_bind, h.get_withEnvironment, h.get_applyFile, decided]
  cases t.value? (t.given env) <;> rfl

end Setting

/-! ## Loaded settings -/

namespace Settings

theorem value_load (path : String) (file : SettingsFile) (env : Environment) :
    (load path file env).value =
      ⟨Setting.output.decided file env, Setting.maxHosts.decided file env⟩ := by
  rw [← Setting.output_isLoaded.get_load path, ← Setting.maxHosts_isLoaded.get_load path]
  rfl

theorem ofEnvironment_eq_load (path : String) (env : Environment) :
    (ofEnvironment env).value = (load path .missing env).value :=
  rfl

end Settings

/-! ## Texts that are no values -/

namespace Setting

variable {α : Type} {t : Setting α}

def isValue (t : Setting α) (text : String) : Bool :=
  (t.read? text).isSome

theorem value?_filter_isValue (t : Setting α) (text : Option String) :
    t.value? (text.filter t.isValue) = t.value? text := by
  cases text with
  | none => rfl
  | some text =>
    rw [Option.filter_some, isValue]
    cases h : t.read? text <;> simp [value?, h]

end Setting

/-- An environment without the texts that are no values of their settings. -/
def Environment.usable (env : Environment) : Environment :=
  { env with
    output := env.output.filter Setting.output.isValue
    maxHosts := env.maxHosts.filter Setting.maxHosts.isValue }

namespace SettingsFile

/-- Whether the text of an entry is a value of the setting that it is for, if there is one. -/
def isUsable (e : String × String) : Bool :=
  (e.1 != Settings.outputKey || Setting.output.isValue e.2) &&
    (e.1 != Settings.maxHostsKey || Setting.maxHosts.isValue e.2)

/-- A settings file without the entries whose texts are no values of their settings. -/
def usable : SettingsFile → SettingsFile
  | found entries => found (entries.filter isUsable)
  | file => file

theorem get?_usable (file : SettingsFile) (key : String) :
    file.usable.get? key = (file.get? key).filter fun text => isUsable (key, text) := by
  cases file with
  | missing => rfl
  | broken problem => rfl
  | found entries => exact entries.get?_filter isUsable key

theorem isUsable_output (text : String) :
    isUsable (Settings.outputKey, text) = Setting.output.isValue text := by
  have hne : (Settings.outputKey != Settings.maxHostsKey) = true := by decide
  simp [isUsable, hne]

theorem isUsable_maxHosts (text : String) :
    isUsable (Settings.maxHostsKey, text) = Setting.maxHosts.isValue text := by
  have hne : (Settings.maxHostsKey != Settings.outputKey) = true := by decide
  simp [isUsable, hne]

end SettingsFile

namespace Setting

variable {α : Type} {t : Setting α}

/-- Texts that are no values of a setting might as well not be there. -/
theorem decided_usable (hfile : ∀ text, SettingsFile.isUsable (t.key, text) = t.isValue text)
    (henv : ∀ env : Environment, t.given env.usable = (t.given env).filter t.isValue)
    (file : SettingsFile) (env : Environment) :
    t.decided file.usable env.usable = t.decided file env := by
  have hget : file.usable.get? t.key = (file.get? t.key).filter t.isValue := by
    rw [SettingsFile.get?_usable]
    exact congrArg (Option.filter · (file.get? t.key)) (funext hfile)
  rw [decided, hget, henv, value?_filter_isValue, value?_filter_isValue, decided]

end Setting

theorem Settings.value_load_usable (path : String) (file : SettingsFile) (env : Environment) :
    (load path file.usable env.usable).value = (load path file env).value := by
  rw [value_load, value_load, Setting.decided_usable SettingsFile.isUsable_output fun _ => rfl,
    Setting.decided_usable SettingsFile.isUsable_maxHosts fun _ => rfl]

/-! ## The order of entries -/

theorem Settings.value_load_of_perm {es es' : Entries} (h : es.toList.Perm es'.toList)
    (path : String) (env : Environment) :
    (load path (.found es) env).value = (load path (.found es') env).value := by
  have hget (key : String) :
      SettingsFile.get? key (.found es) = SettingsFile.get? key (.found es') :=
    Entries.get?_eq_of_perm h key
  rw [value_load, value_load, Setting.decided, Setting.decided, Setting.decided, Setting.decided,
    hget, hget]

/-! ## Flags -/

namespace Program

open CommandLine

/-- The settings file that is asked for. -/
def consulted (options : GlobalOptions) (file : SettingsFile) : SettingsFile :=
  if options.configPath.isSome then file else .missing

theorem value_settings (options : GlobalOptions) (env : Environment) (file : SettingsFile) :
    (settings options env file).value =
      { output := if options.json then .json else Setting.output.decided (consulted options file) env
        maxHosts := Setting.maxHosts.decided (consulted options file) env } := by
  rw [settings, consulted]
  cases options.configPath with
  | some path =>
    rw [Logged.value_bind, Settings.value_load]
    cases options.json <;> rfl
  | none =>
    rw [Logged.value_bind, Settings.ofEnvironment_eq_load "", Settings.value_load]
    cases options.json <;> rfl

/-- A run consists of the records of loading the settings and of the run of its command. -/
theorem runInvocation_eq (i : Invocation) (env : Environment) (file : SettingsFile) :
    let command := runCommand (settings i.options env file).value i.command
    runInvocation i env file =
      ⟨command.value, (settings i.options env file).log.map .record ++ command.emissions⟩ :=
  rfl

end Program

/-- Loading ends with a value of each setting, whatever the file and the environment hold: that of
the first text for the setting, of the environment and then of the file, that is a value of it, and
the standard one if there is none. Texts that are no values change nothing, nor does the order of
the entries. What the program runs then is its command with these settings, unless the flags for
them say otherwise. -/
theorem settings_decided_one_by_one :
    (∀ path file env, (Settings.load path file env).value =
      ⟨Setting.output.decided file env, Setting.maxHosts.decided file env⟩) ∧
    (∀ s o, Setting.output.read? s = some o ↔ Text.lower s = o.name) ∧
    (∀ s n, Setting.maxHosts.read? s = some n ↔ n < UInt64.size ∧
      ∃ digits, Numeral.Denotes digits n ∧
        (Bytes.ofString s = digits ∨ Bytes.ofString s = 0x2B :: digits)) ∧
    (∀ path file env, (Settings.load path file.usable env.usable).value =
      (Settings.load path file env).value) ∧
    (∀ (es es' : Entries) path env, es.toList.Perm es'.toList →
      (Settings.load path (.found es) env).value = (Settings.load path (.found es') env).value) ∧
    (∀ (i : CommandLine.Invocation) env file, ∃ log : List Log.Record,
      let source := Program.consulted i.options file
      let output := if i.options.json then .json else Setting.output.decided source env
      let maxHosts := Setting.maxHosts.decided source env
      let command : Transcript (Except CommandError Unit) := match i.command with
        | .parse kind inputs => ParseReport.run output kind inputs
        | .hosts route limit => HostsReport.run output route (limit.getD maxHosts)
        | .lookup address routes => LookupReport.run output address routes
      Program.runInvocation i env file = ⟨command.value, log.map .record ++ command.emissions⟩) := by
  refine ⟨Settings.value_load, fun s o => OutputFormat.ofString?_eq_some_iff, ?_,
    Settings.value_load_usable, ?_, ?_⟩
  · intro s n
    have hread : Setting.maxHosts.read? s = Numeral.word? s := rfl
    rw [hread, Numeral.word?_eq_below?]
    exact Numeral.below?_eq_some_iff
  · intro es es' path env h
    exact Settings.value_load_of_perm h path env
  · intro i env file
    refine ⟨(Program.settings i.options env file).log, ?_⟩
    rw [Program.runInvocation_eq, Program.value_settings]
    cases i.command <;> rfl

theorem settings_decided_one_by_one_swapped :
    let es := Entries.ofList [(Settings.outputKey, "json"), (Settings.maxHostsKey, "lots")]
    let es' := Entries.ofList [(Settings.maxHostsKey, "lots"), (Settings.outputKey, "json")]
    let env : Environment := ⟨some "xml", some "16", none⟩
    es.toList.Perm es'.toList ∧
      (Settings.load "netaddr.yaml" (.found es) env).value =
        (Settings.load "netaddr.yaml" (.found es') env).value := by
  intro es es' env
  have hperm : es.toList.Perm es'.toList := by decide
  exact ⟨hperm, settings_decided_one_by_one.2.2.2.2.1 es es' "netaddr.yaml" env hperm⟩

end NetLiteral
