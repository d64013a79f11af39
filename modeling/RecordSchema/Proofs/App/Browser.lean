import RecordSchema.Proofs.App.Reload
import RecordSchema.Proofs.Browser.Route
import RecordSchema.Proofs.Descriptor.Contents
import RecordSchema.Proofs.Session.Build

/-!
# What the browser shows

The browser of an application shows the bundle of the last session that has succeeded, whatever else
happens. Its pages are about the root document of that session, as it was when the session ran.
-/

namespace RecordSchema

open Text

section Pages

/-- Whether a route shows a bundle. -/
def Route.isOfBundle : Route → Bool
  | .health => false
  | .metrics => false
  | _ => true

/-- The route of a request. -/
def Request.route? (r : Request) : Option Route :=
  (Target.path? r.method r.target).bind Route.ofPath?

theorem Route.isOfBundle_of_page? {k : Keyword} {name : Text} {route : Route}
    (h : page? k name = some route) : route.isOfBundle = true := by
  cases k <;> cases h <;> rfl

namespace Browser

theorem respond_of_isOfBundle (b : Browser) (metrics : Option Metrics) {r : Request} {route : Route}
    (hmethod : r.method = "GET") (hroute : r.route? = some route)
    (hbundle : route.isOfBundle = true) :
    b.respond metrics r =
      match b.current with
      | none => .noBundle
      | some p => (page? p.bundle route).getD .noRoute := by
  have hknown : Route.methods.contains r.method = true := by
    rw [hmethod]
    decide
  have htakes : route.takes r.method = true := by
    rw [hmethod, Route.takes, Bool.or_eq_true]
    exact Or.inr (by decide)
  have hmetrics : ¬ (route = .metrics ∧ metrics.isNone = true) := by
    rintro ⟨rfl, _⟩
    cases hbundle
  unfold Request.route? at hroute
  simp only [respond, hknown, Bool.not_true, Bool.false_eq_true, if_false, hroute, if_neg hmetrics,
    htakes, if_true]
  cases route with
  | health => cases hbundle
  | metrics => cases hbundle
  | bundle => rfl
  | objects => rfl
  | object name => rfl
  | enum name => rfl
  | bitmask name => rfl
  | database name => rfl

theorem respond_of_route?_eq_none (b : Browser) (metrics : Option Metrics) {r : Request}
    (hmethod : r.method = "GET") (hroute : r.route? = none) : b.respond metrics r = .noRoute := by
  have hknown : Route.methods.contains r.method = true := by
    rw [hmethod]
    decide
  unfold Request.route? at hroute
  simp only [respond, hknown, Bool.not_true, Bool.false_eq_true, if_false, hroute]

/-- The page of a definition is looked up among the descriptors of its kind. -/
theorem page?_eq_found (bundle : Bundle) {k : Keyword} {name : Text} {route : Route}
    (h : Route.page? k name = some route) :
    ∃ kind, page? bundle route = some (found kind name ((bundle.shown k).lookup name)) := by
  cases k <;> cases h <;> exact ⟨_, by rw [Bundle.shown, lookup_map_key]; rfl⟩

end Browser

end Pages

/-- A name that is declared can stand in a path by itself. -/
theorem Document.IsKeyed.isSegment_of_mem_names {d : Document} (h : d.IsKeyed) {k : Keyword}
    {name : Text} (hname : name ∈ d.names k) : ¬ (name = [] ∨ 47 ∈ name) := by
  obtain ⟨e, he, rfl⟩ := List.mem_map.mp hname
  have hidentifier := h.isIdentifier e (List.mem_filter.mp he).1
  rintro (hnil | hslash)
  · rw [hnil] at hidentifier
    cases hidentifier
  · exact absurd (isIdentifierRest_of_mem hidentifier 47 hslash) (by decide)

/-- Whether a response to a question for a definition shows its descriptor if there is one of the
kind and name in a document, and finds nothing otherwise. -/
structure Response.Answers (response : Response) (bundle : Bundle) (d : Document) (k : Keyword)
    (name : Text) : Prop where
  of_mem : name ∈ d.names k → ∃ v, (name, v) ∈ bundle.shown k ∧ response = .json 200 v
  of_notMem : name ∉ d.names k → response.status = 404

/-- Whether requests for definitions are answered by what a document declares: all that are routed
to the page of one, and among them those that are written in the usual way. -/
structure Browser.Serves (respond : Request → Response) (bundle : Bundle) (d : Document) :
    Prop where
  of_route : ∀ {r : Request} {k name route}, r.method = "GET" → Route.page? k name = some route →
    r.route? = some route → (respond r).Answers bundle d k name
  of_target : ∀ {k : Keyword} {segment} (name : Text), k.segment? = some segment →
    (respond { target := "/" ++ segment ++ "/" ++ Target.escape name }).Answers bundle d k name

section Serves

variable {browser : Browser} {p : Publication} {d : Document} (metrics : Option Metrics)
  (hcurrent : browser.current = some p)
  (hnames : ∀ k ∈ Namespace.resolvedKinds, ∀ name,
    name ∈ (p.bundle.shown k).map Prod.fst ↔ name ∈ d.names k)
  (hkeyed : d.IsKeyed)

include hcurrent hnames

theorem Browser.answers_respond {r : Request} {k : Keyword} {name : Text} {route : Route}
    (hmethod : r.method = "GET") (hpage : Route.page? k name = some route)
    (hroute : r.route? = some route) : (browser.respond metrics r).Answers p.bundle d k name := by
  have hk : k ∈ Namespace.resolvedKinds := by
    cases k <;> cases hpage <;> decide
  obtain ⟨kind, hfound⟩ := page?_eq_found p.bundle hpage
  rw [browser.respond_of_isOfBundle metrics hmethod hroute (Route.isOfBundle_of_page? hpage),
    hcurrent]
  simp only [hfound, Option.getD_some]
  constructor
  · intro hname
    cases hlookup : (p.bundle.shown k).lookup name with
    | none => exact absurd ((hnames k hk name).mpr hname) (lookup_eq_none_iff_not_mem.mp hlookup)
    | some v => exact ⟨v, mem_of_lookup_eq_some hlookup, rfl⟩
  · intro hname
    rw [lookup_eq_none_iff_not_mem.mpr (mt (hnames k hk name).mp hname)]
    rfl

include hkeyed

theorem Browser.serves_respond : Serves (browser.respond metrics) p.bundle d where
  of_route := answers_respond metrics hcurrent hnames
  of_target := by
    intro k segment name hsegment
    have htarget : ("/" ++ segment ++ "/" ++ Target.escape name : Text) =
        47 :: segment ++ 47 :: Target.escape name := by
      simp only [List.append_assoc]
      rfl
    have hroute : Request.route? { target := "/" ++ segment ++ "/" ++ Target.escape name } =
        if name = [] ∨ 47 ∈ name then none else Route.page? k name := by
      rw [Request.route?, htarget]
      exact Route.ofPath?_target hsegment name
    by_cases hname : name = [] ∨ 47 ∈ name
    · rw [if_pos hname] at hroute
      rw [browser.respond_of_route?_eq_none metrics rfl hroute]
      exact ⟨fun hmem => absurd hname (hkeyed.isSegment_of_mem_names hmem), fun _ => rfl⟩
    · rw [if_neg hname] at hroute
      obtain ⟨route, hpage⟩ : ∃ route, Route.page? k name = some route := by
        cases k <;> cases hsegment <;> exact ⟨_, rfl⟩
      exact answers_respond metrics hcurrent hnames rfl hpage (hroute.trans hpage)

end Serves

namespace App

variable {σ : Type} {machine : Machine σ}

/-- The last session of a run that has succeeded, with the state that it started from. -/
def lastGood? (reports : List (Report σ)) : Option (Session × σ) :=
  ((reports.filterMap Report.session).filter fun s => s.1.failure.isNone).getLast?

theorem lastGood?_of_session_eq_none {reports : List (Report σ)} {report : Report σ}
    (h : report.session = none) : lastGood? (reports ++ [report]) = lastGood? reports := by
  rw [lastGood?, List.filterMap_append, List.filterMap_cons, h, List.filterMap_nil, List.append_nil,
    lastGood?]

theorem lastGood?_of_failure {reports : List (Report σ)} {report : Report σ} {s : Session × σ}
    (h : report.session = some s) (hfailure : s.1.failure ≠ none) :
    lastGood? (reports ++ [report]) = lastGood? reports := by
  have hs : s.1.failure.isNone = false :=
    Bool.eq_false_iff.mpr (mt Option.isNone_iff_eq_none.mp hfailure)
  simp [lastGood?, h, hs]

theorem lastGood?_of_success {reports : List (Report σ)} {report : Report σ} {s : Session × σ}
    (h : report.session = some s) (hok : s.1.failure = none) :
    lastGood? (reports ++ [report]) = some s := by
  simp [lastGood?, h, hok]

/-- Whether the browser shows what a session has made of its root document. -/
def Displays (machine : Machine σ) (a : App σ) (s : Session) (state : σ) : Prop :=
  ∃ options built updated,
    (Built.ofRoot (machine.storage.source state) options s.root).1 = .ok built ∧
    s.bundle = some built.bundle ∧ a.browser.current = some ⟨s.id, built.bundle, updated⟩

theorem displays_run {write canceled : Bool} {root : Text} {a : App σ}
    (hok : (run machine write canceled root a).1.failure = none) :
    Displays machine (run machine write canceled root a).2 (run machine write canceled root a).1
      a.service.state := by
  have hconducts := Service.conducts_run machine.toSurroundings write canceled root a.service
  obtain ⟨d, hend, hdelivers⟩ := hconducts.ends.exists_delivery hok
  obtain ⟨rfl, hbuilt⟩ := Service.build_of_conclude hend
  obtain ⟨raw, hbuild, hpresent⟩ := Service.exists_of_built_eq_ok hbuilt
  obtain ⟨b, updated, hbundle, hcurrent⟩ :=
    (publishes_run machine write false root a).current_eq hok
  have hraw : d.built.bundle = raw.bundle := by
    rw [hpresent]
    rfl
  cases (hdelivers.bundle_eq.trans (congrArg some hraw)).symm.trans hbundle
  refine ⟨a.service.options, raw, updated, ?_, hbundle, hcurrent⟩
  have hroot : (run machine write false root a).1.root = Source.resolve [] root := hconducts.root_eq
  rw [hroot]
  exact hbuild

/-- What a session has made is about its root document. -/
theorem Displays.serves {a : App σ} {s : Session} {state : σ} (h : Displays machine a s state) :
    ∃ bundle updated d, s.bundle = some bundle ∧
      a.browser.current = some ⟨s.id, bundle, updated⟩ ∧
      (machine.storage.source state).documents s.root = .ok d ∧
      Browser.Serves a.respond bundle d := by
  obtain ⟨options, built, updated, hbuilt, hbundle, hcurrent⟩ := h
  obtain ⟨p, m, hstages, _⟩ := Built.stages_of_ofRoot hbuilt
  obtain ⟨d, hd, hnames⟩ :=
    Bundle.exists_document_of_emit hstages.load_eq hstages.resolve_eq hstages.emit_eq
  refine ⟨built.bundle, updated, d, hbundle, hcurrent, hd, ?_⟩
  exact Browser.serves_respond a.service.metrics hcurrent hnames (Source.isKeyed_of_documents hd)

theorem browser_reload (machine : Machine σ) (env : Environment)
    (reaction : Text → Settings → List Text) (a : App σ) :
    (a.reload machine env reaction).2.browser = a.browser := by
  simp only [reload, foldl_tell]

namespace World

/-- Whether the browser shows the last good session of a run, and nothing before the first one. -/
structure ShowsLast (machine : Machine σ) (reports : List (Report σ)) (w : World σ) : Prop where
  current_eq : lastGood? reports = none → w.app.browser.current = none
  displays : ∀ {s state}, lastGood? reports = some (s, state) → Displays machine w.app s state

theorem ShowsLast.of_eq {reports : List (Report σ)} {w w' : World σ} {report : Report σ}
    (h : w.ShowsLast machine reports) (hbrowser : w'.app.browser = w.app.browser)
    (hlast : lastGood? (reports ++ [report]) = lastGood? reports) :
    w'.ShowsLast machine (reports ++ [report]) where
  current_eq := fun hnone => by rw [hbrowser, h.current_eq (hlast ▸ hnone)]
  displays := by
    intro s state hsome
    obtain ⟨options, built, updated, hbuilt, hbundle, hcurrent⟩ := h.displays (hlast ▸ hsome)
    exact ⟨options, built, updated, hbuilt, hbundle, hbrowser ▸ hcurrent⟩

theorem ShowsLast.step {reports : List (Report σ)} {w : World σ} (h : w.ShowsLast machine reports)
    (op : Operation σ) :
    (w.step machine op).2.ShowsLast machine (reports ++ [(w.step machine op).1]) := by
  cases op with
  | session write canceled root =>
      by_cases hok : (App.run machine write canceled root w.app).1.failure = none
      · have hlast : lastGood? (reports ++ [(w.step machine (.session write canceled root)).1]) =
            some ((App.run machine write canceled root w.app).1, w.app.service.state) :=
          lastGood?_of_success rfl hok
        constructor
        · intro hnone
          cases hlast.symm.trans hnone
        · intro s state hsome
          cases hlast.symm.trans hsome
          exact displays_run hok
      · have hbrowser := (publishes_run machine write canceled root w.app).browser_eq hok
        exact h.of_eq hbrowser (lastGood?_of_failure rfl hok)
  | edit change => exact h.of_eq rfl (lastGood?_of_session_eq_none rfl)
  | environment env => exact h.of_eq rfl (lastGood?_of_session_eq_none rfl)
  | listen name => exact h.of_eq rfl (lastGood?_of_session_eq_none rfl)
  | reload reaction =>
      exact h.of_eq (browser_reload machine w.env reaction w.app) (lastGood?_of_session_eq_none rfl)

theorem showsLast_start {env : Environment} {path : Text} {clock : Clock} {state : σ} {app : App σ}
    (h : App.start machine env path clock state = .ok app) :
    World.ShowsLast machine [] ⟨app, env⟩ := by
  obtain ⟨holder, _, rfl⟩ := map_eq_ok_iff.mp h
  exact ⟨fun _ => rfl, by rintro _ _ ⟨⟩⟩

/-- The browser always shows the last good bundle. Whatever happens to an application, before its
first session that succeeds nothing is shown, and every route to a bundle is answered by 503.
Afterwards the browser has the bundle and the name of the last session that has succeeded. Objects,
enums, bitmasks and databases are found under exactly the names that the root document of that
session declares. -/
theorem showsLast_run {env : Environment} {path : Text} {clock : Clock} {state : σ} {app : App σ}
    (h : App.start machine env path clock state = .ok app) (ops : List (Operation σ)) :
    (lastGood? (World.run machine ops ⟨app, env⟩).1 = none →
      (World.run machine ops ⟨app, env⟩).2.app.browser.current = none ∧
        ∀ {r : Request} {route}, r.method = "GET" → r.route? = some route →
          route.isOfBundle = true →
          ((World.run machine ops ⟨app, env⟩).2.app.respond r).status = 503) ∧
      ∀ {s state}, lastGood? (World.run machine ops ⟨app, env⟩).1 = some (s, state) →
        ∃ bundle updated d, s.bundle = some bundle ∧
          (World.run machine ops ⟨app, env⟩).2.app.browser.current =
            some ⟨s.id, bundle, updated⟩ ∧
          (machine.storage.source state).documents s.root = .ok d ∧
          Browser.Serves (World.run machine ops ⟨app, env⟩).2.app.respond bundle d := by
  have hrun := run_induction machine (P := ShowsLast machine) (fun _ _ op hw => hw.step op)
    (showsLast_start h) ops
  constructor
  · intro hnone
    refine ⟨hrun.current_eq hnone, fun hmethod hroute hbundle => ?_⟩
    rw [App.respond, Browser.respond_of_isOfBundle _ _ hmethod hroute hbundle,
      hrun.current_eq hnone]
    rfl
  · intro s state hsome
    exact (hrun.displays hsome).serves

section Kept

/-- A document that compiles and one that does not. -/
def keptDisk : Disk :=
  Disk.ofFiles [("a.yaml", "Object O:\n x: u8\n"), ("b.yaml", "Object O:\n x: P\n")]

/-- The second document is tried before and after the first one. -/
def keptOperations : List (Operation Disk) :=
  [.session true false "b.yaml", .session false false "a.yaml", .session true false "b.yaml"]

/-- The application after a number of the operations, with what they have shown. -/
def keptRun (count : Nat) (app : App Disk) : List (Report Disk) × World Disk :=
  World.run (Command.machine ofNat) (keptOperations.take count) ⟨app, []⟩

theorem showsLast_run_kept : ∃ app s state,
    App.start (Command.machine ofNat) [] "judegen.yaml" ⟨0, 1⟩ keptDisk = .ok app ∧
      ((keptRun 1 app).2.app.respond { target := "/bundle" }).status = 503 ∧
      lastGood? (keptRun 3 app).1 = some (s, state) ∧ s.id = ofNat 2 ∧
      ∃ bundle updated d, s.bundle = some bundle ∧
        (keptRun 3 app).2.app.browser.current = some ⟨s.id, bundle, updated⟩ ∧
        ((Command.machine ofNat).storage.source state).documents s.root = .ok d ∧
        Browser.Serves (keptRun 3 app).2.app.respond bundle d := by
  have hran : (App.start (Command.machine ofNat) [] "judegen.yaml" ⟨0, 1⟩ keptDisk).toOption.map
      (fun app => ((lastGood? (keptRun 1 app).1).isNone,
        (lastGood? (keptRun 3 app).1).map fun s => s.1.id)) = some (true, some (ofNat 2)) := by
    decide +kernel
  obtain ⟨app, happ, hsessions⟩ := Option.map_eq_some_iff.mp hran
  obtain ⟨hnone, hlast⟩ := Prod.mk.inj hsessions
  obtain ⟨⟨s, state⟩, hs, hid⟩ := Option.map_eq_some_iff.mp hlast
  have hstart := eq_ok_of_toOption_eq_some happ
  refine ⟨app, s, state, hstart, ?_, hs, hid, ?_⟩
  · have hroute : Request.route? { target := "/bundle" } = some .bundle := by decide
    exact ((showsLast_run hstart _).1 (Option.isNone_iff_eq_none.mp hnone)).2 rfl hroute rfl
  · exact (showsLast_run hstart _).2 hs

end Kept

end World

end App

end RecordSchema
