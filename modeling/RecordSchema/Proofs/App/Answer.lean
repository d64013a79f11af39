import RecordSchema.Proofs.App.Browser
import RecordSchema.Proofs.Descriptor.Value
import RecordSchema.Proofs.Json.Form

/-!
# Answers and their documents

An answer with status 200 is meant for the part of the bundle that was asked for. It carries that
part exactly if the fields in it have bounds and defaults with a JSON form. Otherwise its body is
empty, with the status as it is. After a session that has shown its bundle as JSON this cannot
happen.
-/

namespace RecordSchema

open Text Value

section Representable

theorem Value.passes_representable : Value.Passes fun _ v => v.Representable where
  list_iff := representable_list
  record_iff := representable_record
  text := representable_text
  int := representable_int
  bool := representable_bool

/-- Whether the bounds and the default of a field have a JSON form. -/
structure FieldDescriptor.Representable (f : FieldDescriptor) : Prop where
  min_isFinite : ∀ d ∈ f.min, d.isFinite = true
  max_isFinite : ∀ d ∈ f.max, d.isFinite = true
  default : ∀ v ∈ f.default, v.Representable

theorem FieldDescriptor.representable_value_iff {f : FieldDescriptor} :
    f.value.Representable ↔ f.Representable := by
  rw [passes_value_iff (n := 0) Value.passes_representable]
  simp only [representable_float]
  exact ⟨fun ⟨hmin, hmax, hdefault⟩ => ⟨hmin, hmax, hdefault⟩,
    fun ⟨hmin, hmax, hdefault⟩ => ⟨hmin, hmax, hdefault⟩⟩

theorem ObjectDescriptor.representable_value_iff {o : ObjectDescriptor} :
    (o.value .null).Representable ↔ ∀ f ∈ o.fields, f.Representable := by
  rw [passes_value_iff (n := 0) Value.passes_representable representable_null]
  simp only [FieldDescriptor.representable_value_iff]

theorem DatabaseDescriptor.representable_value (d : DatabaseDescriptor) : d.value.Representable :=
  d.passes_value (n := 0) Value.passes_representable

theorem EnumDescriptor.representable_value (e : EnumDescriptor) : e.value.Representable :=
  e.passes_value (n := 0) Value.passes_representable

namespace Bundle

theorem representable_value_iff {b : Bundle} :
    (b.value .null).Representable ↔ ∀ o ∈ b.objects, ∀ f ∈ o.fields, f.Representable := by
  rw [passes_value_iff (n := 0) Value.passes_representable]
  simp only [ObjectDescriptor.representable_value_iff]

theorem representable_summaries (b : Bundle) : (Browser.summaries b).Representable := by
  simp [Browser.summaries, representable_record, representable_list]

end Bundle

end Representable

namespace Bundle

/-- The part of a bundle that a route asks for, if there is one. -/
def part? (b : Bundle) : Route → Option Value
  | .bundle => some (b.value .null)
  | .objects => some (Browser.summaries b)
  | .object name => (b.object? name).map (ObjectDescriptor.value .null)
  | .enum name => (b.enum? name).map EnumDescriptor.value
  | .bitmask name => (b.bitmask? name).map EnumDescriptor.value
  | .database name => (b.database? name).map DatabaseDescriptor.value
  | .health => none
  | .metrics => none

/-- The fields that are shown with their bounds and defaults in the part that a route asks for. -/
def fieldsOf (b : Bundle) : Route → List FieldDescriptor
  | .bundle => b.objects.flatMap ObjectDescriptor.fields
  | .object name => (b.object? name).toList.flatMap ObjectDescriptor.fields
  | _ => []

theorem isOfBundle_of_part? {b : Bundle} {route : Route} {v : Value} (h : b.part? route = some v) :
    route.isOfBundle = true := by
  cases route <;> first | rfl | cases h

theorem representable_part?_iff {b : Bundle} {route : Route} {v : Value}
    (h : b.part? route = some v) :
    v.Representable ↔ ∀ f ∈ b.fieldsOf route, f.Representable := by
  cases route with
  | health => cases h
  | metrics => cases h
  | bundle =>
      cases h
      rw [representable_value_iff, fieldsOf, List.forall_mem_flatMap]
  | objects =>
      cases h
      exact iff_of_true b.representable_summaries (List.forall_mem_nil _)
  | object name =>
      obtain ⟨o, ho, rfl⟩ := Option.map_eq_some_iff.mp h
      rw [ObjectDescriptor.representable_value_iff, fieldsOf, ho, Option.toList_some,
        List.flatMap_singleton]
  | enum name =>
      obtain ⟨e, _, rfl⟩ := Option.map_eq_some_iff.mp h
      exact iff_of_true e.representable_value (List.forall_mem_nil _)
  | bitmask name =>
      obtain ⟨e, _, rfl⟩ := Option.map_eq_some_iff.mp h
      exact iff_of_true e.representable_value (List.forall_mem_nil _)
  | database name =>
      obtain ⟨d, _, rfl⟩ := Option.map_eq_some_iff.mp h
      exact iff_of_true d.representable_value (List.forall_mem_nil _)

/-- The fields of every part are fields of the whole. -/
theorem fieldsOf_subset (b : Bundle) (route : Route) : b.fieldsOf route ⊆ b.fieldsOf .bundle := by
  intro f hf
  cases route with
  | bundle => exact hf
  | object name =>
      obtain ⟨o, ho, hf⟩ := List.mem_flatMap.mp hf
      exact List.mem_flatMap.mpr ⟨o, List.mem_of_find?_eq_some (Option.mem_toList.mp ho), hf⟩
  | _ => exact absurd hf List.not_mem_nil

/-- A bundle that has been shown as JSON holds nothing that JSON cannot show. -/
theorem representable_of_json {b : Bundle} {options : FormatOptions} {t : Text}
    (h : Format.json.bundle options b = .ok t) : ∀ f ∈ b.fieldsOf .bundle, f.Representable := by
  obtain ⟨written, hwritten, _⟩ := bind_eq_ok_iff.mp h
  have hwhole : b.part? .bundle = some (b.value .null) := rfl
  exact (representable_part?_iff hwhole).mp ((Json.exists_write_iff _ _ _).mp ⟨_, hwritten⟩)

end Bundle

namespace Response

/-- Whether an answer carries a value as its document. -/
structure Carries (response : Response) (v : Value) : Prop where
  type_eq : response.type = "application/json"
  body_eq : ∃ t, Json.compact v = .ok t ∧ response.body = t ++ [10]

theorem body_json {status : Nat} {v : Value} {t : Text} (h : Json.compact v = .ok t) :
    (json status v).body = t ++ [10] := by
  simp only [json, h]

theorem carries_json_iff (status : Nat) {v : Value} :
    (json status v).Carries v ↔ v.Representable := by
  rw [← Json.exists_write_iff .compact 0 v]
  constructor
  · rintro ⟨_, t, ht, _⟩
    exact ⟨t, ht⟩
  · rintro ⟨t, ht⟩
    exact ⟨rfl, t, ht, body_json ht⟩

theorem body_json_of_not_carries {status : Nat} {v : Value} (h : ¬ (json status v).Carries v) :
    (json status v).body = [] := by
  cases hwritten : Json.compact v with
  | ok t => exact absurd ⟨rfl, t, hwritten, body_json hwritten⟩ h
  | error e => simp only [json, hwritten]

/-- Whether an answer presents the part of a bundle that a route asks for: it has status 200
exactly if there is such a part, and it carries that part or nothing, according to the fields that
are shown. -/
structure Presents (response : Response) (b : Bundle) (route : Route) : Prop where
  status_eq_iff : response.status = 200 ↔ ∃ v, b.part? route = some v
  carries_iff : ∀ {v}, b.part? route = some v →
    (response.Carries v ↔ ∀ f ∈ b.fieldsOf route, f.Representable)
  body_eq : ∀ {v}, b.part? route = some v → ¬ response.Carries v → response.body = []

end Response

namespace Browser

theorem page?_eq_part? (b : Bundle) {route : Route} (h : route.isOfBundle = true) :
    (∃ v, b.part? route = some v ∧ page? b route = some (.json 200 v)) ∨
      ∃ kind name, b.part? route = none ∧ page? b route = some (.notFound kind name) := by
  have hfound : ∀ kind name (v? : Option Value),
      (∃ v, v? = some v ∧ some (found kind name v?) = some (.json 200 v)) ∨
        ∃ kind' name', v? = none ∧ some (found kind name v?) = some (.notFound kind' name') := by
    rintro kind name (_ | v)
    · exact Or.inr ⟨kind, name, rfl, rfl⟩
    · exact Or.inl ⟨v, rfl, rfl⟩
  cases route with
  | health => cases h
  | metrics => cases h
  | bundle => exact Or.inl ⟨_, rfl, rfl⟩
  | objects => exact Or.inl ⟨_, rfl, rfl⟩
  | object name => exact hfound _ _ _
  | enum name => exact hfound _ _ _
  | bitmask name => exact hfound _ _ _
  | database name => exact hfound _ _ _

theorem presents_respond {browser : Browser} {p : Publication} (metrics : Option Metrics)
    (hcurrent : browser.current = some p) {r : Request} {route : Route} (hmethod : r.method = "GET")
    (hroute : r.route? = some route) (hbundle : route.isOfBundle = true) :
    (browser.respond metrics r).Presents p.bundle route := by
  rw [browser.respond_of_isOfBundle metrics hmethod hroute hbundle, hcurrent]
  obtain ⟨v, hpart, hpage⟩ | ⟨kind, name, hpart, hpage⟩ := page?_eq_part? p.bundle hbundle
  · simp only [hpage, Option.getD_some]
    refine ⟨iff_of_true rfl ⟨v, hpart⟩, ?_, ?_⟩
    · intro w hw
      cases hpart.symm.trans hw
      rw [Response.carries_json_iff, Bundle.representable_part?_iff hpart]
    · intro w hw hcarries
      cases hpart.symm.trans hw
      exact Response.body_json_of_not_carries hcarries
  · simp only [hpage, Option.getD_some]
    have hstatus : (Response.notFound kind name).status = 404 := rfl
    have hnone : ∀ v, p.bundle.part? route ≠ some v := by
      intro v hv
      cases hpart.symm.trans hv
    refine ⟨iff_of_false (by rw [hstatus]; decide) (not_exists.mpr hnone), ?_, ?_⟩
    · exact fun hv => absurd hv (hnone _)
    · exact fun hv => absurd hv (hnone _)

end Browser

/-- Whether a session has shown a bundle in a format, under arrangements for each session. -/
structure Session.Formatted (s : Session) (arrange : Nat → Arrangement) (f : Format) (b : Bundle) :
    Prop where
  bundle_eq : s.bundle = some b
  shows : f.Shows b s.output
  output_eq : (∀ n, arrange n = .asRead) → f.bundle {} b = .ok s.output

namespace App

variable {σ : Type} {machine : Machine σ}

theorem exists_formatted_run {write canceled : Bool} {root : Text} {a : App σ}
    (hok : (run machine write canceled root a).1.failure = none) :
    ∃ f b, (run machine write canceled root a).1.Formatted machine.arrange f b := by
  have hconducts := Service.conducts_run machine.toSurroundings write canceled root a.service
  obtain ⟨d, hend, hdelivers⟩ := hconducts.ends.exists_delivery hok
  obtain ⟨rfl, hbuilt⟩ := Service.build_of_conclude hend
  obtain ⟨raw, hbuild, hpresent⟩ := Service.exists_of_built_eq_ok hbuilt
  obtain ⟨_, _, hstages, _⟩ := Built.stages_of_ofRoot hbuild
  have hdelivers : (run machine write false root a).1.Delivers d := hdelivers
  refine ⟨raw.format, raw.bundle, ?_, ?_, ?_⟩
  · rw [hdelivers.bundle_eq, hpresent]
    rfl
  · rw [hdelivers.output_eq, hpresent]
    exact Arrangement.shows _ raw hstages.output_eq
  · intro hasRead
    rw [hdelivers.output_eq, hpresent, hasRead]
    exact hstages.output_eq

theorem mem_of_lastGood?_eq_some {reports : List (Report σ)} {x : Session × σ}
    (h : lastGood? reports = some x) :
    ∃ report ∈ reports, report.session = some x ∧ x.1.failure = none := by
  obtain ⟨hx, hok⟩ := List.mem_filter.mp (List.mem_of_getLast? h)
  obtain ⟨report, hreport, hsession⟩ := List.mem_filterMap.mp hx
  exact ⟨report, hreport, hsession, Option.isNone_iff_eq_none.mp hok⟩

namespace World

/-- Whether every session of a run that has succeeded has shown its bundle. -/
def AllFormatted (arrange : Nat → Arrangement) (reports : List (Report σ)) : Prop :=
  ∀ report ∈ reports, ∀ x ∈ report.session, x.1.failure = none → ∃ f b, x.1.Formatted arrange f b

theorem AllFormatted.step {reports : List (Report σ)} (h : AllFormatted machine.arrange reports)
    (w : World σ) (op : Operation σ) :
    AllFormatted machine.arrange (reports ++ [(w.step machine op).1]) := by
  intro report hreport x hx hok
  obtain hreport | rfl := List.mem_append.mp hreport |>.imp_right List.mem_singleton.mp
  · exact h report hreport x hx hok
  · cases op with
    | session write canceled root =>
        cases hx
        exact exists_formatted_run hok
    | edit change => cases hx
    | environment env => cases hx
    | listen name => cases hx
    | reload reaction => cases hx

/-- After a session that has succeeded, a request for a part of a bundle gets status 200 exactly if
the bundle of the last such session has that part. The answer carries the part exactly if the
bounds and the defaults of all fields in it have a JSON form, and nothing otherwise. If the session
has shown the bundle as JSON, every part is carried. -/
theorem presents_run {env : Environment} {path : Text} {clock : Clock} {state : σ} {app : App σ}
    (h : App.start machine env path clock state = .ok app) (ops : List (Operation σ)) {s : Session}
    {before : σ} (hlast : lastGood? (World.run machine ops ⟨app, env⟩).1 = some (s, before)) :
    ∃ f b, s.Formatted machine.arrange f b ∧
      (∀ {r : Request} {route}, r.method = "GET" → r.route? = some route → route.isOfBundle = true →
        ((World.run machine ops ⟨app, env⟩).2.app.respond r).Presents b route) ∧
      (f = .json → ∀ {r : Request} {route v}, r.method = "GET" → r.route? = some route →
        b.part? route = some v →
          ((World.run machine ops ⟨app, env⟩).2.app.respond r).Carries v) := by
  have hshows := run_induction machine (P := ShowsLast machine) (fun _ _ op hw => hw.step op)
    (showsLast_start h) ops
  have hformatted :=
    run_induction machine (P := fun reports _ => AllFormatted machine.arrange reports)
      (w := ⟨app, env⟩) (fun _ w op hw => hw.step w op) (by rintro _ ⟨⟩) ops
  obtain ⟨report, hreport, hsession, hok⟩ := mem_of_lastGood?_eq_some hlast
  obtain ⟨f, b, hb⟩ := hformatted report hreport _ hsession hok
  obtain ⟨_, built, updated, _, hbundle, hcurrent⟩ := hshows.displays hlast
  cases hb.bundle_eq.symm.trans hbundle
  have hpresents : ∀ {r : Request} {route}, r.method = "GET" → r.route? = some route →
      route.isOfBundle = true →
        ((World.run machine ops ⟨app, env⟩).2.app.respond r).Presents built.bundle route :=
    Browser.presents_respond _ hcurrent
  refine ⟨f, built.bundle, hb, hpresents, ?_⟩
  rintro rfl r route v hmethod hroute hpart
  have hroutes : route.isOfBundle = true := Bundle.isOfBundle_of_part? hpart
  refine ((hpresents hmethod hroute hroutes).carries_iff hpart).mpr ?_
  intro d hd
  exact Bundle.representable_of_json hb.shows d (built.bundle.fieldsOf_subset route hd)

section Infinite

/-- Sessions that show their bundles as YAML, with a field that has no greatest value. -/
def infiniteDisk : Disk :=
  Disk.ofFiles [("judegen.yaml", "output: \x7bformat: yaml\x7d\n"),
    ("a.yaml", "Object A:\n x: \x7btype: u8, max: .inf\x7d\n")]

def infiniteRun (app : App Disk) : List (Report Disk) × World Disk :=
  World.run (Command.machine ofNat) [.session false false "a.yaml"] ⟨app, []⟩

theorem presents_run_infinite : ∃ app s before,
    App.start (Command.machine ofNat) [] "judegen.yaml" ⟨0, 1⟩ infiniteDisk = .ok app ∧
      lastGood? (infiniteRun app).1 = some (s, before) ∧
      ((infiniteRun app).2.app.respond { target := "/objects/A" }).status = 200 ∧
      ((infiniteRun app).2.app.respond { target := "/objects/A" }).body = [] ∧
      ∃ v, ((infiniteRun app).2.app.respond { target := "/objects" }).Carries v := by
  have hran : (do
      let app ← (App.start (Command.machine ofNat) [] "judegen.yaml" ⟨0, 1⟩ infiniteDisk).toOption
      let x ← lastGood? (infiniteRun app).1
      let o ← x.1.bundle.bind fun b => b.object? "A"
      let f ← o.fields.find? fun f => f.name == ofString "x"
      f.max.map Double.isFinite) = some false := by
    decide +kernel
  obtain ⟨app, happ, hran⟩ := Option.bind_eq_some_iff.mp hran
  obtain ⟨⟨s, before⟩, hs, hran⟩ := Option.bind_eq_some_iff.mp hran
  obtain ⟨o, ho, hran⟩ := Option.bind_eq_some_iff.mp hran
  obtain ⟨d, hd, hran⟩ := Option.bind_eq_some_iff.mp hran
  obtain ⟨max, hmax, hinfinite⟩ := Option.map_eq_some_iff.mp hran
  have hstart := eq_ok_of_toOption_eq_some happ
  obtain ⟨f, b, hformatted, hpresents, _⟩ := presents_run hstart _ hs
  replace ho : b.object? "A" = some o := by
    rwa [hformatted.bundle_eq] at ho
  have hroute : Request.route? { target := "/objects/A" } = some (.object "A") := by decide
  have hroutes : Request.route? { target := "/objects" } = some .objects := by decide
  have hobject := hpresents rfl hroute rfl
  have hpart : b.part? (.object "A") = some (o.value .null) := by
    rw [Bundle.part?, ho, Option.map_some]
  have hfield : d ∈ b.fieldsOf (.object "A") := by
    rw [Bundle.fieldsOf, ho]
    exact List.mem_flatMap.mpr ⟨o, List.mem_singleton_self o, List.mem_of_find?_eq_some hd⟩
  refine ⟨app, s, before, hstart, hs, hobject.status_eq_iff.mpr ⟨_, hpart⟩, ?_, Browser.summaries b,
    ?_⟩
  · apply hobject.body_eq hpart
    intro hcarries
    have hfinite := ((hobject.carries_iff hpart).mp hcarries d hfield).max_isFinite max hmax
    cases hinfinite.symm.trans hfinite
  · exact ((hpresents rfl hroutes rfl).carries_iff rfl).mpr (List.forall_mem_nil _)

end Infinite

end World

end App

end RecordSchema
