import RecordSchema.Command.Run
import RecordSchema.Proofs.App.Run
import RecordSchema.Proofs.Session.Failure

/-!
# Settings and sessions in step

An application keeps the options of its sessions in step with the settings by listening to them. The
listeners may register others while they are told, so the list that is told is the one from before,
and what is registered meanwhile is told the next time.
-/

namespace RecordSchema

open Text

theorem Holder.foldl_listen (names : List Text) (h : Holder) :
    names.foldl listen h = { h with listeners := h.listeners ++ names } := by
  induction names generalizing h with
  | nil => rw [List.foldl_nil, List.append_nil]
  | cons name rest ih =>
      rw [List.foldl_cons, ih, listen, List.append_assoc]
      rfl

namespace App

variable {σ : Type} {machine : Machine σ}

section Reload

/-- What becomes of an application whose listeners are told of settings. -/
theorem foldl_tell (settings : Settings) (reaction : Text → Settings → List Text)
    (names : List Text) (a : App σ) :
    names.foldl (fun a name => a.tell settings reaction name) a =
      { a with
        holder := { a.holder with
          listeners := a.holder.listeners ++ names.flatMap fun name => reaction name settings }
        service := { a.service with
          options :=
            if listener ∈ names then settings.compileOptions else a.service.options } } := by
  induction names generalizing a with
  | nil => simp
  | cons name rest ih =>
      rw [List.foldl_cons, ih, tell, Holder.foldl_listen]
      by_cases hname : name = listener
      · simp [hname]
      · simp [hname, Ne.symm hname]

/-- What loading the settings again comes to. If they are refused, the application is as it was and
nobody is told. Otherwise everyone who was registered is told of the new settings, once and in
order, and the new listeners follow after them. -/
structure Reloads (machine : Machine σ) (w : World σ) (reaction : Text → Settings → List Text)
    (registered : List Text) (ran : Reload × App σ) : Prop where
  of_error : ∀ {e},
    Settings.loadOrDefault (machine.disk w.app.service.state) w.env w.app.holder.path =
      .error e → ran.1.failure = some e ∧ ran.1.told = [] ∧ ran.2 = w.app
  of_ok : ∀ {settings},
    Settings.loadOrDefault (machine.disk w.app.service.state) w.env w.app.holder.path =
      .ok settings →
    ran.1.failure = none ∧ ran.1.told = registered ∧
      ran.2.holder.settings = settings ∧
      ran.2.holder.listeners =
        registered ++ registered.flatMap (fun name => reaction name settings) ∧
      ran.2.service = { w.app.service with options := settings.compileOptions } ∧
      ran.2.browser = w.app.browser

theorem reloads_reload {w : World σ} (hlistens : listener ∈ w.app.holder.listeners)
    (reaction : Text → Settings → List Text) :
    Reloads machine w reaction w.app.holder.listeners (w.app.reload machine w.env reaction) := by
  constructor
  · intro e hload
    simp only [reload, Holder.reload, hload, List.foldl_nil, and_self]
  · intro settings hload
    simp only [reload, Holder.reload, hload, foldl_tell, if_pos hlistens, and_self]

end Reload

/-- A session leaves the settings and the options. -/
theorem run_eq (machine : Machine σ) (write canceled : Bool) (root : Text) (a : App σ) :
    (run machine write canceled root a).2.holder = a.holder ∧
      (run machine write canceled root a).2.service.options = a.service.options := by
  have hoptions :=
    (Service.conducts_run machine.toSurroundings write canceled root a.service).options_eq
  unfold run
  simp only
  obtain ⟨state, log, hwritten⟩ := writeMetrics_eq machine _
  rw [hwritten]
  exact ⟨rfl, hoptions⟩

/-- Whether each reload of a run has told those who had registered before it, if it succeeded, and
nobody otherwise. -/
def TellsInOrder (reports : List (Report σ)) : Prop :=
  ∀ earlier report later r, reports = earlier ++ report :: later → report.reload = some r →
    (r.failure = none → r.told = listener :: earlier.flatMap Report.registered) ∧
      (r.failure ≠ none → r.told = [])

theorem TellsInOrder.concat {reports : List (Report σ)} {report : Report σ}
    (h : TellsInOrder reports) (hreport : ∀ r, report.reload = some r →
      (r.failure = none → r.told = listener :: reports.flatMap Report.registered) ∧
        (r.failure ≠ none → r.told = [])) :
    TellsInOrder (reports ++ [report]) := by
  intro earlier report' later r heq hr
  rcases later.eq_nil_or_concat with rfl | ⟨later', last, rfl⟩
  · obtain ⟨rfl, hlast⟩ := List.append_inj' heq rfl
    cases hlast
    exact hreport r hr
  · rw [List.concat_eq_append, ← List.cons_append, ← List.append_assoc] at heq
    exact h earlier report' later' r (List.append_inj' heq rfl).1 hr

/-- Whether sessions run under the options of the settings in force, and the listeners are the
application and those that have registered since. -/
structure World.InStep (reports : List (Report σ)) (w : World σ) : Prop where
  options_eq : w.app.service.options = w.app.holder.settings.compileOptions
  listeners_eq : w.app.holder.listeners = listener :: reports.flatMap Report.registered
  tellsInOrder : TellsInOrder reports

namespace World

variable {reports : List (Report σ)} {w : World σ}

theorem InStep.listens (h : w.InStep reports) : listener ∈ w.app.holder.listeners := by
  rw [h.listeners_eq]
  exact List.mem_cons_self

/-- An operation that neither registers nor reloads, and leaves settings and options. -/
theorem InStep.of_eq (h : w.InStep reports) {w' : World σ} {report : Report σ}
    (hholder : w'.app.holder = w.app.holder)
    (hoptions : w'.app.service.options = w.app.service.options)
    (hreload : report.reload = none) (hregistered : report.registered = []) :
    w'.InStep (reports ++ [report]) where
  options_eq := by rw [hoptions, hholder, h.options_eq]
  listeners_eq := by
    rw [hholder, h.listeners_eq, List.flatMap_append, List.flatMap_singleton, hregistered,
      List.append_nil]
  tellsInOrder := h.tellsInOrder.concat fun r hr => by cases hreload.symm.trans hr

theorem InStep.reload (h : w.InStep reports) (reaction : Text → Settings → List Text) :
    (w.step machine (.reload reaction)).2.InStep
      (reports ++ [(w.step machine (.reload reaction)).1]) := by
  have hreloads : Reloads machine w reaction _ _ := reloads_reload h.listens reaction
  cases hload : Settings.loadOrDefault (machine.disk w.app.service.state) w.env
      w.app.holder.path with
  | error e =>
      obtain ⟨hfailure, htold, happ⟩ := hreloads.of_error hload
      constructor
      · simp only [World.step, happ]
        exact h.options_eq
      · simp only [World.step, happ, htold, List.flatMap_nil, List.flatMap_append,
          List.flatMap_singleton, List.append_nil]
        exact h.listeners_eq
      · apply h.tellsInOrder.concat
        rintro r ⟨⟩
        refine ⟨fun hok => ?_, fun _ => htold⟩
        cases hok.symm.trans hfailure
  | ok settings =>
      obtain ⟨hok, htold, hsettings, hlisteners, hservice, _⟩ := hreloads.of_ok hload
      constructor
      · simp only [World.step, hservice, hsettings]
      · simp only [World.step, hlisteners, htold, hsettings, List.flatMap_append,
          List.flatMap_singleton]
        rw [h.listeners_eq, List.cons_append]
      · apply h.tellsInOrder.concat
        rintro r ⟨⟩
        exact ⟨fun _ => htold.trans h.listeners_eq, fun hfailure => absurd hok hfailure⟩

theorem InStep.step (h : w.InStep reports) (op : Operation σ) :
    (w.step machine op).2.InStep (reports ++ [(w.step machine op).1]) := by
  cases op with
  | session write canceled root =>
      obtain ⟨hholder, hoptions⟩ := run_eq machine write canceled root w.app
      exact h.of_eq hholder hoptions rfl rfl
  | edit change => exact h.of_eq rfl rfl rfl rfl
  | environment env => exact h.of_eq rfl rfl rfl rfl
  | listen name =>
      constructor
      · exact h.options_eq
      · simp only [World.step, Holder.listen, h.listeners_eq, List.flatMap_append,
          List.flatMap_singleton, List.cons_append]
      · exact h.tellsInOrder.concat fun r hr => by cases hr
  | reload reaction => exact h.reload reaction

theorem inStep_start {env : Environment} {path : Text} {clock : Clock} {state : σ} {app : App σ}
    (h : App.start machine env path clock state = .ok app) : World.InStep [] ⟨app, env⟩ := by
  obtain ⟨holder, hholder, rfl⟩ := map_eq_ok_iff.mp h
  obtain ⟨settings, _, rfl⟩ := map_eq_ok_iff.mp hholder
  refine ⟨rfl, rfl, fun earlier report later r heq => ?_⟩
  cases (List.append_eq_nil_iff.mp heq.symm).2

/-- Settings and sessions stay in step whatever happens to an application: files and the
environment change, sessions run, listeners register and settings are loaded again, some of them
refused. After every run the options are those of the settings in force, and every reload so far
has told exactly those who had registered before it, also from within an earlier reload. The next
reload leaves everything as it is and tells nobody, if the settings are refused, and otherwise
tells everyone, once and in order, of the new settings, which are then in force. -/
theorem inStep_run {env : Environment} {path : Text} {clock : Clock} {state : σ} {app : App σ}
    (h : App.start machine env path clock state = .ok app) (ops : List (Operation σ)) :
    (World.run machine ops ⟨app, env⟩).2.InStep (World.run machine ops ⟨app, env⟩).1 ∧
      ∀ reaction, Reloads machine (World.run machine ops ⟨app, env⟩).2 reaction
        (listener :: (World.run machine ops ⟨app, env⟩).1.flatMap Report.registered)
        ((World.run machine ops ⟨app, env⟩).2.app.reload machine
          (World.run machine ops ⟨app, env⟩).2.env reaction) := by
  have hrun :=
    run_induction machine (P := InStep) (fun _ _ op hw => hw.step op) (inStep_start h) ops
  refine ⟨hrun, fun reaction => ?_⟩
  rw [← hrun.listeners_eq]
  exact reloads_reload hrun.listens reaction

section Nested

/-- Settings that name a directory. -/
def settingsDisk (directory : Text) : Disk :=
  Disk.ofFiles [("judegen.yaml", "output: \x7bdir: " ++ directory ++ "\x7d\n")]

/-- A listener that registers another one each time it is told. -/
def nestedReaction (name : Text) (_ : Settings) : List Text := if name = "one" then ["two"] else []

/-- The settings are refused once and then loaded again twice. -/
def nestedOperations : List (Operation Disk) :=
  [.listen "one", .edit fun d => d.put "judegen.yaml" "output: \x7bformat: none\x7d\n",
    .reload nestedReaction, .edit fun _ => settingsDisk "b", .reload nestedReaction,
    .reload nestedReaction]

theorem inStep_run_nested : ∃ app,
    App.start (Command.machine fun _ => "s") [] "judegen.yaml" ⟨0, 1⟩ (settingsDisk "a") = .ok app ∧
      ((World.run (Command.machine fun _ => "s") nestedOperations ⟨app, []⟩).1.filterMap
        Report.reload).map Reload.told =
          [[], [listener, ("one" : Text)], [listener, ("one" : Text), ("two" : Text)]] ∧
      (World.run (Command.machine fun _ => "s") nestedOperations ⟨app, []⟩).2.InStep
        (World.run (Command.machine fun _ => "s") nestedOperations ⟨app, []⟩).1 := by
  have hran : (App.start (Command.machine fun _ => "s") [] "judegen.yaml" ⟨0, 1⟩
      (settingsDisk "a")).toOption.map (fun app =>
        ((World.run (Command.machine fun _ => "s") nestedOperations ⟨app, []⟩).1.filterMap
          Report.reload).map Reload.told) =
        some [[], [listener, ("one" : Text)], [listener, ("one" : Text), ("two" : Text)]] := by
    decide +kernel
  obtain ⟨app, happ, htold⟩ := Option.map_eq_some_iff.mp hran
  have hstart := eq_ok_of_toOption_eq_some happ
  exact ⟨app, hstart, htold, (inStep_run hstart nestedOperations).1⟩

end Nested

end World

end App

end RecordSchema
