import RecordSchema.Proofs.Outcome
import RecordSchema.Settings.Load

/-!
# Which settings are in force

A setting can be given by a variable and by a file, and has a default. The variables are put over
the file one after another, then what is still not given takes its default, and what comes out is
checked. For each setting this amounts to a rule of its own, with one exception: the defaults of the
affixes follow the naming that is in force.
-/

namespace RecordSchema

open Text

/-- One of the settings: how it is found and how it is set. -/
structure Setting (α : Type) where
  get : Settings → α
  set : α → Settings → Settings
  set_get : ∀ s, set (get s) s = s

namespace Environment

variable {α : Type}

/-- What a variable says when it is read in a way, if it is given and can be read so. -/
def said? (env : Environment) (read : Text → Option α) (name : Text) : Option α :=
  if env.get name = [] then none else read (env.get name)

/-- A truth word, which is no for everything that is not yes. -/
def truth (t : Text) : Option Bool := some (isYes t)

/-- A number that fits a word. -/
def number? (t : Text) : Option Int := (Number.decimal? t).filter Number.fitsInt64

/-- Sets what a variable says, and leaves the setting as it is if it says nothing. -/
def change (env : Environment) (read : Text → Option α) (name : Text) (setting : Setting α)
    (s : Settings) : Settings :=
  setting.set ((env.said? read name).getD (setting.get s)) s

theorem change_eq (env : Environment) (read : Text → Option α) (name : Text) (setting : Setting α) :
    env.change read name setting = fun s =>
      if (env.get name).isEmpty then s else
        match read (env.get name) with
        | some v => setting.set v s
        | none => s := by
  funext s
  unfold change said?
  cases env.get name with
  | nil => exact setting.set_get s
  | cons b rest =>
      simp only [List.isEmpty_cons, Bool.false_eq_true, if_false, reduceCtorEq]
      cases read (b :: rest) with
      | none => exact setting.set_get s
      | some v => rfl

/-- The changes that the variables make, one after another. -/
def changes (env : Environment) : List (Settings → Settings) :=
  [env.change some "JUDEGEN_OUTPUT_DIR"
      ⟨(·.output.directory), fun v s => { s with output.directory := v }, fun _ => rfl⟩,
    env.change some "JUDEGEN_OUTPUT_FORMAT"
      ⟨(·.output.format), fun v s => { s with output.format := v }, fun _ => rfl⟩,
    env.change some "JUDEGEN_NAMING_STRUCT_SUFFIX"
      ⟨(·.naming.structSuffix), fun v s => { s with naming.structSuffix := v }, fun _ => rfl⟩,
    env.change some "JUDEGEN_NAMING_MEMBER_PREFIX"
      ⟨(·.naming.memberPrefix), fun v s => { s with naming.memberPrefix := v }, fun _ => rfl⟩,
    env.change some "JUDEGEN_NAMING_OBJECT_SUFFIX"
      ⟨(·.naming.objectSuffix), fun v s => { s with naming.objectSuffix := v }, fun _ => rfl⟩,
    env.change truth "JUDEGEN_NAMING_LEGACY"
      ⟨(·.naming.legacy), fun v s => { s with naming.legacy := v }, fun _ => rfl⟩,
    env.change number? "JUDEGEN_LAYOUT_POINTER_SIZE"
      ⟨(·.pointerSize), fun v s => { s with pointerSize := v }, fun _ => rfl⟩,
    env.change some "JUDEGEN_LOG_LEVEL"
      ⟨(·.logging.level), fun v s => { s with logging.level := v }, fun _ => rfl⟩,
    env.change some "JUDEGEN_LOG_FORMAT"
      ⟨(·.logging.format), fun v s => { s with logging.format := v }, fun _ => rfl⟩,
    env.change truth "JUDEGEN_METRICS_ENABLED"
      ⟨(·.metrics.enabled), fun v s => { s with metrics.enabled := v }, fun _ => rfl⟩,
    env.change some "JUDEGEN_METRICS_TEXTFILE"
      ⟨(·.metrics.textfile), fun v s => { s with metrics.textfile := v }, fun _ => rfl⟩,
    env.change some "JUDEGEN_SERVE_ADDR"
      ⟨(·.serve.address), fun v s => { s with serve.address := v }, fun _ => rfl⟩,
    env.change Duration.parse? "JUDEGEN_WATCH_DEBOUNCE"
      ⟨(·.watch.debounce), fun v s => { s with watch.debounce := v }, fun _ => rfl⟩,
    env.change Duration.parse? "JUDEGEN_WATCH_MIN_INTERVAL"
      ⟨(·.watch.minInterval), fun v s => { s with watch.minInterval := v }, fun _ => rfl⟩]

/-- Putting the variables over settings makes their changes. -/
theorem override_eq_foldl (env : Environment) (s : Settings) :
    env.override s = env.changes.foldl (fun s change => change s) s := by
  have hchanges :
      overrides.map (fun o s => if (env.get o.1).isEmpty then s else o.2 (env.get o.1) s) =
        env.changes := by
    simp only [overrides, changes, List.map_cons, List.map_nil, change_eq, List.cons.injEq,
      true_and, and_true]
    -- Texts are set in the same words on both sides, truth words once their reading is put in.
    refine ⟨rfl, ?pointerSize, rfl, ?_, ?_⟩
    case pointerSize =>
      funext s
      unfold number?
      cases Number.decimal? _ with
      | none => rfl
      | some n => cases hfits : Number.fitsInt64 n <;> simp [Option.filter, hfits]
    all_goals
      funext s
      cases Duration.parse? _ <;> rfl
  rw [← hchanges, List.foldl_map]
  rfl

end Environment

namespace Settings

variable {α : Type} [DecidableEq α]

/-- The value of a setting. What a variable says comes first, and where it says what stands for
nothing it asks for the default. Otherwise the file counts, and the default where the file gives
nothing. -/
def prevailing (nothing : α) (said : Option α) (given fallback : α) : α :=
  match said with
  | some v => if v = nothing then fallback else v
  | none => if given = nothing then fallback else given

theorem orText_getD (said : Option Text) (given fallback : Text) :
    orText (said.getD given) fallback = prevailing [] said given fallback := by
  cases said with
  | none => simp only [orText, prevailing, Option.getD_none, List.isEmpty_iff]
  | some v => simp only [orText, prevailing, Option.getD_some, List.isEmpty_iff]

theorem orInt_getD (said : Option Int) (given fallback : Int) :
    orInt (said.getD given) fallback = prevailing 0 said given fallback := by
  cases said with
  | none => rfl
  | some v => rfl

/-- A setting without a default is as it is said or given to be. -/
theorem getD_eq_prevailing (nothing : α) (said : Option α) (given : α) :
    said.getD given = prevailing nothing said given nothing := by
  cases said with
  | none =>
      rw [prevailing, Option.getD_none, ite_eq_right_iff.mpr]
      exact Eq.symm
  | some v =>
      rw [prevailing, Option.getD_some, ite_eq_right_iff.mpr]
      exact Eq.symm

open Environment in
/-- The settings in force, one by one. -/
def inForce (env : Environment) (file : Settings) : Settings :=
  let text (name given fallback : Text) : Text := prevailing [] (env.said? some name) given fallback
  let switch (name : Text) (given : Bool) : Bool :=
    prevailing false (env.said? truth name) given false
  let time (name : Text) (given fallback : Int) : Int :=
    prevailing 0 (env.said? Duration.parse? name) given fallback
  let legacy := switch "JUDEGEN_NAMING_LEGACY" file.naming.legacy
  let affixes := if legacy then Naming.older else Naming.standard
  { output :=
      { directory := text "JUDEGEN_OUTPUT_DIR" file.output.directory "out"
        format := text "JUDEGEN_OUTPUT_FORMAT" file.output.format "json" }
    naming :=
      { structSuffix :=
          text "JUDEGEN_NAMING_STRUCT_SUFFIX" file.naming.structSuffix affixes.structSuffix
        memberPrefix :=
          text "JUDEGEN_NAMING_MEMBER_PREFIX" file.naming.memberPrefix affixes.memberPrefix
        objectSuffix :=
          text "JUDEGEN_NAMING_OBJECT_SUFFIX" file.naming.objectSuffix affixes.objectSuffix
        legacy }
    pointerSize :=
      prevailing 0 (env.said? number? "JUDEGEN_LAYOUT_POINTER_SIZE") file.pointerSize 8
    logging :=
      { level := text "JUDEGEN_LOG_LEVEL" file.logging.level "info"
        format := text "JUDEGEN_LOG_FORMAT" file.logging.format "console" }
    metrics :=
      { enabled := switch "JUDEGEN_METRICS_ENABLED" file.metrics.enabled
        textfile := text "JUDEGEN_METRICS_TEXTFILE" file.metrics.textfile [] }
    serve :=
      { address := text "JUDEGEN_SERVE_ADDR" file.serve.address "127.0.0.1:8080"
        timeout := prevailing 0 none file.serve.timeout 30000000000 }
    watch :=
      { debounce := time "JUDEGEN_WATCH_DEBOUNCE" file.watch.debounce 200000000
        minInterval := time "JUDEGEN_WATCH_MIN_INTERVAL" file.watch.minInterval 1000000000 } }

/-- What is put over a file and filled up with defaults is what is in force. -/
theorem withDefaults_override (env : Environment) (file : Settings) :
    (env.override file).withDefaults = inForce env file := by
  rw [Environment.override_eq_foldl]
  simp only [inForce, ← getD_eq_prevailing]
  simp only [← orText_getD, ← orInt_getD]
  rfl

/-- Whether settings can be worked with. -/
structure IsAdmissible (s : Settings) : Prop where
  format_known : ∃ f : Format, f.name = s.output.format
  pointerSize_eq : s.pointerSize = 4 ∨ s.pointerSize = 8
  level_known : ∃ l : LogLevel, l.name = s.logging.level
  logFormat_eq : s.logging.format = "json" ∨ s.logging.format = "console"
  debounce_nonneg : 0 ≤ s.watch.debounce
  minInterval_nonneg : 0 ≤ s.watch.minInterval

theorem get?_standard_isNone_iff (name : Text) :
    (Registry.standard.get? name).isNone = false ↔ ∃ f : Format, f.name = name := by
  rw [Option.isNone_eq_false_iff, Registry.get?, List.find?_isSome]
  constructor
  · rintro ⟨f, _, hname⟩
    exact ⟨f, beq_iff_eq.mp hname⟩
  · rintro ⟨f, rfl⟩
    exact ⟨f, by cases f <;> decide, beq_self_eq_true _⟩

theorem contains_logLevel_iff (name : Text) :
    (LogLevel.all.map LogLevel.name).contains name = true ↔ ∃ l : LogLevel, l.name = name := by
  rw [List.contains_iff_mem, List.mem_map]
  constructor
  · rintro ⟨l, _, hname⟩
    exact ⟨l, hname⟩
  · rintro ⟨l, hname⟩
    exact ⟨l, by cases l <;> decide, hname⟩

theorem flaw?_eq_none_iff (s : Settings) : s.flaw? = none ↔ s.IsAdmissible := by
  unfold flaw?
  constructor
  · intro h
    split_ifs at h with hformat hpointer hlevel hlog htime
    exact ⟨(get?_standard_isNone_iff _).mp (Bool.eq_false_iff.mpr hformat), by omega,
      (contains_logLevel_iff _).mp (by simpa using hlevel), by tauto, by omega, by omega⟩
  · rintro ⟨hformat, hpointer, hlevel, hlog, hdebounce, hinterval⟩
    rw [if_neg (Bool.eq_false_iff.mp ((get?_standard_isNone_iff _).mpr hformat)), if_neg (by omega),
      if_neg (by rw [(contains_logLevel_iff _).mpr hlevel]; decide), if_neg (by tauto),
      if_neg (by omega)]

/-- Settings of a file can be worked with exactly if those in force can, and then these are the
result. -/
theorem finish_eq_ok_iff (env : Environment) (file r : Settings) :
    finish env file = .ok r ↔ r = inForce env file ∧ r.IsAdmissible := by
  unfold finish
  rw [withDefaults_override]
  simp only
  cases hflaw : (inForce env file).flaw? with
  | none =>
      simp only [Except.ok.injEq]
      constructor
      · rintro rfl
        exact ⟨rfl, (flaw?_eq_none_iff _).mp hflaw⟩
      · rintro ⟨rfl, _⟩
        rfl
  | some flaw =>
      simp only [reduceCtorEq, false_iff, not_and]
      rintro rfl hadmissible
      rw [(flaw?_eq_none_iff _).mpr hadmissible] at hflaw
      cases hflaw

/-- Whether the file at a path holds settings, once the variables that it mentions are put in. -/
def Holds (disk : Disk) (env : Environment) (path : Text) (file : Settings) : Prop :=
  ∃ t, disk.read path = .ok t ∧ decode (env.expand t) = .ok file

/-- Whether settings are those to start from: what the file at a path holds, or blank ones if there
is nothing at the path. -/
def Gives (disk : Disk) (env : Environment) (path : Text) (file : Settings) : Prop :=
  if (disk.stat path).isOk then Holds disk env path file else file = blank

theorem load_eq_ok_iff (disk : Disk) (env : Environment) (path : Text) (r : Settings) :
    load disk env path = .ok r ↔ ∃ file, Holds disk env path file ∧ finish env file = .ok r := by
  unfold load Holds
  constructor
  · intro h
    split at h
    · cases h
    · next t hread =>
        split at h
        · cases h
        · next file hdecode => exact ⟨file, ⟨t, hread, hdecode⟩, h⟩
  · rintro ⟨file, ⟨t, hread, hdecode⟩, h⟩
    simp only [hread, hdecode, h]

theorem loadOrDefault_eq_ok_iff (disk : Disk) (env : Environment) (path : Text) (r : Settings) :
    loadOrDefault disk env path = .ok r ↔
      ∃ file, Gives disk env path file ∧ finish env file = .ok r := by
  unfold loadOrDefault Gives
  split_ifs
  · exact load_eq_ok_iff disk env path r
  · rw [exists_eq_left]

/-- Each setting is decided by itself: the variable counts before the file and the file before the
default, where a variable that says zero asks for the default and one that cannot be read counts
for nothing. The affixes take the defaults of the naming in force. Loading succeeds exactly if the
settings that come out can be worked with, and gives these, whether they start from decoded
settings, from the file at a path or from the file only if there is one. -/
theorem loads_inForce (env : Environment) :
    (∀ file r, finish env file = .ok r ↔ r = inForce env file ∧ r.IsAdmissible) ∧
      ∀ disk path r,
        (load disk env path = .ok r ↔
          ∃ file, Holds disk env path file ∧ r = inForce env file ∧ r.IsAdmissible) ∧
        (loadOrDefault disk env path = .ok r ↔
          ∃ file, Gives disk env path file ∧ r = inForce env file ∧ r.IsAdmissible) := by
  refine ⟨finish_eq_ok_iff env, fun disk path r => ?_⟩
  simp only [load_eq_ok_iff, loadOrDefault_eq_ok_iff, finish_eq_ok_iff, and_self]

/-- A duration of zero asks for the default although the file has another one, and words that are no
duration leave the file's. The older naming brings its suffix, which the file had not given. -/
example :
    (finish [("JUDEGEN_WATCH_DEBOUNCE", "0s"), ("JUDEGEN_WATCH_MIN_INTERVAL", "soon")]
      { watch := { debounce := 5, minInterval := 7 }
        naming := { structSuffix := "_s", memberPrefix := [], legacy := true } }).toOption =
    some
      { output := { directory := "out", format := "json" }
        naming :=
          { structSuffix := "_s", memberPrefix := "m_", objectSuffix := "Accessor", legacy := true }
        pointerSize := 8
        logging := { level := "info", format := "console" }
        serve := { address := "127.0.0.1:8080", timeout := 30000000000 }
        watch := { debounce := 200000000, minInterval := 7 } } := by
  decide +kernel

end Settings

end RecordSchema
