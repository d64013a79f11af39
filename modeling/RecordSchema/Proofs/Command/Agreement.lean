import RecordSchema.Command.Run
import RecordSchema.Proofs.Session.Check
import RecordSchema.Proofs.Session.Repeated
import RecordSchema.Proofs.Store.Within

/-!
# Commands that check and commands that write

For one document, validating succeeds exactly when generating does, and what generating prints is
one of the texts that it may write. The commands share the application that they start and differ in
its session and its arrangement. They agree in all arrangements if and only if what is built for the
document is settled.
-/

namespace RecordSchema

open Text

namespace App

/-- Whether the metrics of an application are kept away from a file. -/
def Spares (a : App Disk) (path : Text) : Prop :=
  a.service.metrics = none ∨ a.holder.settings.metrics.textfile = [] ∨
    Path.clean a.holder.settings.metrics.textfile ≠ path

section Metrics

variable {identify : Nat → Text} {arrange : Nat → Arrangement} {a : App Disk} {path text : Text}

/-- Whether a file still has a text after the metrics were written, which may have been put over
it. -/
def Leaves (a : App Disk) (path text : Text) (d : Disk) : Prop :=
  d.read path = .ok text ∨ ¬ a.Spares path ∧ ∃ m : Metrics, d.read path = .ok m.expose

theorem leaves_writeMetrics (hclean : Path.clean path = path)
    (hread : a.service.state.read path = .ok text) :
    a.Leaves path text (writeMetrics (Command.machine identify arrange) a).service.state := by
  unfold writeMetrics
  simp only
  split
  · exact .inl hread
  · next m hm =>
      split_ifs with hempty
      · exact .inl hread
      · split
        · next d hreplace =>
            by_cases hpath : Path.clean a.holder.settings.metrics.textfile = path
            · refine .inr ⟨?_, m, ?_⟩
              · rintro (hnone | hnil | hne)
                · cases hm.symm.trans hnone
                · exact hempty (List.isEmpty_iff.mpr hnil)
                · exact hne hpath
              · have hlocate := (Disk.stat_eq_ok_iff.mp (Disk.read_eq_ok_iff.mp hread)).1
                apply Disk.read_replace_of_placeOf_eq hreplace hlocate
                rw [← hpath, Disk.placeOf_clean]
            · have hplace : Disk.placeOf path ≠
                  Disk.placeOf a.holder.settings.metrics.textfile := by
                intro heq
                exact hpath ((Disk.clean_eq_of_placeOf_eq heq).symm.trans hclean)
              exact .inl (Disk.read_of_keepsBut (Disk.keepsBut_replace hreplace) hplace hread)
        · exact .inl hread

theorem leaves_run {write canceled : Bool} {root : Text} (hclean : Path.clean path = path)
    (hread : (Service.run (Command.machine identify arrange).toSurroundings write canceled root
      a.service).2.state.read path = .ok text) :
    a.Leaves path text
      (run (Command.machine identify arrange) write canceled root a).2.service.state := by
  have hmeasured := (Service.conducts_run (Command.machine identify arrange).toSurroundings write
    canceled root a.service).measured_eq
  unfold run
  simp only
  generalize hafter : App.mk a.holder _ _ = after
  have hread' : after.service.state.read path = .ok text := by
    rw [← hafter]
    exact hread
  obtain hkept | ⟨hspares, hexposed⟩ := leaves_writeMetrics hclean hread'
  · exact .inl hkept
  · refine .inr ⟨fun h => hspares ?_, hexposed⟩
    subst hafter
    exact h.imp_left fun hnone => Option.not_isSome_iff_eq_none.mp (by simp [hmeasured, hnone])

end Metrics

/-- Sessions of an application agree if and only if their arrangements do on what is built. -/
theorem agrees_run_iff {identify : Nat → Text} {arrange arrange' : Nat → Arrangement} {root : Text}
    {a : App Disk}
    (haccepts : Service.Accepts (Command.machine identify arrange').toSurroundings false
      root a.service) :
    (a.run (Command.machine identify arrange) false false root).1.Agrees
        (a.run (Command.machine identify arrange') true false root).1 ↔
      (arrange (a.service.started + 1)).apply
          (Service.build (Command.machine identify).toSurroundings false root a.service).1 =
        (arrange' (a.service.started + 1)).apply
          (Service.build (Command.machine identify).toSurroundings false root a.service).1 :=
  Service.agrees_run_iff rfl haccepts

end App

/-- The arguments with the switch that makes generating print. -/
def Arguments.printing (a : Arguments) : Arguments :=
  { a with values := Keyed.set "stdout" "true" a.values }

namespace Command

/-- A call of the program: its arguments and what it finds. -/
structure Invocation where
  arguments : Arguments
  env : Environment := []
  clock : Clock := ⟨0, 1⟩
  disk : Disk
  identify : Nat → Text

namespace Invocation

/-- The application that the commands run in. -/
def started (c : Invocation) : Except SettingsError (App Disk) :=
  App.start (machine c.identify) (withFlags c.arguments c.env)
    ((c.arguments.value? "config").getD settingsFile) c.clock c.disk

/-- Generating in an arrangement. -/
def generated (c : Invocation) (arrange : Nat → Arrangement) : Ran :=
  perform .generate c.arguments (machine c.identify arrange) c.env c.clock c.disk

/-- Generating with printing. -/
def printed (c : Invocation) (arrange : Nat → Arrangement) : Ran :=
  perform .generate c.arguments.printing (machine c.identify arrange) c.env c.clock c.disk

/-- Validating in an arrangement. -/
def validated (c : Invocation) (arrange : Nat → Arrangement) : Ran :=
  perform .validate c.arguments (machine c.identify arrange) c.env c.clock c.disk

end Invocation

section Printing

theorem value?_printing (a : Arguments) {name : Text} (h : name ≠ "stdout") :
    a.printing.value? name = a.value? name :=
  Keyed.lookup_set_of_ne h _ _

theorem isOn_printing (a : Arguments) : a.printing.isOn "stdout" = true := by
  simp [Arguments.isOn, Arguments.value?, Arguments.printing]

/-- Printing is asked for by a switch that is no variable of the settings. -/
theorem withFlags_printing (a : Arguments) (env : Environment) :
    withFlags a.printing env = withFlags a env := by
  unfold withFlags
  apply List.foldl_ext
  intro env v hv
  have hne : v.1 ≠ ("stdout" : Text) :=
    (by decide : ∀ v ∈ flagVariables, v.1 ≠ ("stdout" : Text)) v hv
  rw [value?_printing a hne]

end Printing

/-- What generating one document leaves behind. -/
theorem generateAll_singleton (m : Machine Disk) (print : Bool) (root : Text) (app : App Disk) :
    let ran := app.run m (!print) false root
    generateAll m print [root] [] [] app =
      { out :=
          if ran.1.failure.isSome then [] else if print then ran.1.output else writtenLine ran.1
        failure := ran.1.failure.map .session
        disk := ran.2.service.state
        sessions := [ran.1] } := by
  simp only [generateAll, List.nil_append]
  cases (app.run m (!print) false root).1.failure with
  | none => rfl
  | some e => rfl

namespace Invocation

variable {c : Invocation} {root : Text} {app : App Disk}

/-- The arrangement is of no use to the settings. -/
theorem started_eq (c : Invocation) (arrange : Nat → Arrangement) :
    c.started = App.start (machine c.identify arrange) (withFlags c.arguments c.env)
      ((c.arguments.value? "config").getD settingsFile) c.clock c.disk :=
  rfl

theorem generated_eq (hrest : c.arguments.rest = [root])
    (hwriting : c.arguments.isOn "stdout" = false) (arrange : Nat → Arrangement) :
    c.generated arrange =
      match c.started with
      | .error e => { disk := c.disk, failure := some (.settings e) }
      | .ok app => generateAll (machine c.identify arrange) false [root] [] [] app := by
  rw [started_eq c arrange]
  unfold generated perform
  simp only [hrest, hwriting]
  generalize App.start _ _ _ _ _ = app
  cases app with
  | error e => rfl
  | ok app => rfl

theorem printed_eq (hrest : c.arguments.rest = [root]) (arrange : Nat → Arrangement) :
    c.printed arrange =
      match c.started with
      | .error e => { disk := c.disk, failure := some (.settings e) }
      | .ok app => generateAll (machine c.identify arrange) true [root] [] [] app := by
  have hrest' : c.arguments.printing.rest = [root] := hrest
  rw [started_eq c arrange]
  unfold printed perform
  simp only [hrest', isOn_printing, withFlags_printing]
  rw [value?_printing c.arguments (by decide)]
  generalize App.start _ _ _ _ _ = app
  cases app with
  | error e => rfl
  | ok app => rfl

theorem validated_eq (hrest : c.arguments.rest = [root]) (arrange : Nat → Arrangement) :
    c.validated arrange =
      match c.started with
      | .error e => { disk := c.disk, failure := some (.settings e) }
      | .ok app =>
        let ran := app.run (machine c.identify arrange) false false root
        { out := checkedLines root ran.1
          failure := if ran.1.failure.isSome then some (.invalid 1 1) else none
          disk := ran.2.service.state
          sessions := [ran.1] } := by
  rw [started_eq c arrange]
  unfold validated perform
  simp only [hrest]
  generalize App.start _ _ _ _ _ = app
  cases app with
  | error e => rfl
  | ok app =>
      simp only [validateAll, List.nil_append]
      cases hfailure : (app.run (machine c.identify arrange) false false root).1.failure with
      | none => simp [hfailure]
      | some e => simp [hfailure]

end Invocation

/-- What generating, printing and validating a document come to in an application, with a session
each. The file has the text that was generated, unless the metrics were put over it. -/
structure Yields (app : App Disk) (generated printed validated : Ran) (g p v : Session) : Prop where
  sessions_generated : generated.sessions = [g]
  sessions_printed : printed.sessions = [p]
  sessions_validated : validated.sessions = [v]
  failure_generated : generated.failure = g.failure.map .session
  failure_printed : printed.failure = p.failure.map .session
  failure_validated : validated.failure = none ↔ v.failure = none
  out_printed : p.failure = none → printed.out = p.output
  file_generated : g.failure = none → ∃ text, Digest.ofText text = Digest.ofText g.output ∧
    (g.written = true → text = g.output) ∧ app.Leaves g.path text generated.disk

theorem Yields.eq {app : App Disk} {generated printed validated : Ran} {g p v g' p' v' : Session}
    (h : Yields app generated printed validated g p v)
    (h' : Yields app generated printed validated g' p' v') : g = g' ∧ p = p' ∧ v = v' :=
  ⟨List.singleton_inj.mp (h.sessions_generated.symm.trans h'.sessions_generated),
    List.singleton_inj.mp (h.sessions_printed.symm.trans h'.sessions_printed),
    List.singleton_inj.mp (h.sessions_validated.symm.trans h'.sessions_validated)⟩

namespace Invocation

variable {c : Invocation} {root : Text} {app : App Disk}

/-- A session that generates leaves its text in its file. -/
theorem exists_leaves {arrange : Nat → Arrangement}
    (hok : (app.run (machine c.identify arrange) true false root).1.failure = none) :
    let ran := app.run (machine c.identify arrange) true false root
    ∃ text, Digest.ofText text = Digest.ofText ran.1.output ∧
      (ran.1.written = true → text = ran.1.output) ∧
      app.Leaves ran.1.path text ran.2.service.state := by
  intro ran
  obtain ⟨_, b, text, written, _, hdelivers, hholds, hsame, htext⟩ :=
    Service.holds_of_run Storage.stocks_disk hok
  have hread := (Disk.holds_view_iff.mp hholds).2
  have hpath : ran.1.path = b.path app.service.options := hdelivers.path_eq
  have houtput : ran.1.output = b.output := hdelivers.output_eq
  have hwritten : ran.1.written = written := hdelivers.written_eq
  rw [hpath, houtput, hwritten]
  exact ⟨text, hsame, htext, App.leaves_run (b.clean_path _) hread⟩

theorem yields_run (hrest : c.arguments.rest = [root])
    (hwriting : c.arguments.isOn "stdout" = false)
    (hstarted : c.started = .ok app) (generating printing validating : Nat → Arrangement) :
    Yields app (c.generated generating) (c.printed printing) (c.validated validating)
      (app.run (machine c.identify generating) true false root).1
      (app.run (machine c.identify printing) false false root).1
      (app.run (machine c.identify validating) false false root).1 := by
  rw [generated_eq hrest hwriting, printed_eq hrest, validated_eq hrest, hstarted]
  simp only [generateAll_singleton, Bool.not_false, Bool.not_true]
  constructor
  · rfl
  · rfl
  · rfl
  · rfl
  · rfl
  · cases (app.run (machine c.identify validating) false false root).1.failure with
    | none => simp
    | some e => simp
  · intro hok
    simp only [hok, Option.isSome_none, Bool.false_eq_true, if_false, if_true]
  · exact exists_leaves

end Invocation

section Single

/-- Generating the descriptors of a document that is settled. -/
def plain : Invocation :=
  { arguments := { values := [("format", "yaml")], rest := ["a.yaml"] }
    disk := Disk.ofFiles [("a.yaml", "Object O:\n x: u8\n")]
    identify := fun _ => "s" }

def plainRan : Except SettingsError (Session × Service Disk) :=
  plain.started.map fun app =>
    Service.run (machine plain.identify).toSurroundings true false "a.yaml" app.service

theorem plainRan_settled : (plainRan.toOption.any fun ran =>
    ran.1.failure.isNone && ran.1.written && ran.1.bundle.all Bundle.isSettled) = true := by
  decide +kernel

/-- Whether sessions for a document in memory can write, but leave something open. -/
structure IsOpen (s : Service Memory) : Prop where
  accepts : ∀ arrange, Service.Accepts ⟨Storage.memory, fun _ => "s", arrange⟩ false "a.yaml" s
  unsettled :
    ¬ Built.isSettled (Service.build ⟨Storage.memory, fun _ => "s", fun _ => .asRead⟩ false
    "a.yaml" s).1 = true

theorem isOpen_timed : IsOpen Service.timedService := by
  have hran := Service.timedFirst_unsettled
  unfold Service.timedFirst at hran
  obtain ⟨hok, hwritten, hbundle⟩ := hran
  have hok := Option.isNone_iff_eq_none.mp hok
  have haccepts := Service.accepts_of_written hok hwritten Storage.isIndifferent_memory
  refine ⟨haccepts, ?_⟩
  rw [Service.isSettled_build_iff hok]
  obtain ⟨b, hb, hsettled⟩ := Option.map_eq_some_iff.mp hbundle
  intro hall
  have htrue := hall b hb rfl
  rw [hsettled] at htrue
  cases htrue

/-- A document with two verbs that are not known. -/
def misnamedService : Service Memory :=
  { Service.timedService with
    state :=
      { library := .ofList
          [("a.yaml", "Object A:\n x: \x7btype: u8, auth: \x7bfoo: Root, bar: Root\x7d\x7d\n")] } }

theorem isOpen_misnamed : IsOpen misnamedService := by
  have hran : let built := (Service.build ⟨Storage.memory, fun _ => "s", fun _ => .asRead⟩ false
        "a.yaml" misnamedService).1
      built.toOption.isNone = true ∧ Built.isSettled built = false := by
    decide +kernel
  refine ⟨fun arrange b hb => ?_, Bool.eq_false_iff.mp hran.2⟩
  obtain ⟨raw, hraw, _⟩ := Service.exists_of_built_eq_ok hb
  have hfailed := (congrArg (fun built => built.toOption.isNone) hraw).symm.trans hran.1
  cases hfailed

end Single

end Command

end RecordSchema
