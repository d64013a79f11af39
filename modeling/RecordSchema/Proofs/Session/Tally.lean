import Mathlib.Data.List.Nodup
import RecordSchema.Proofs.Session.Run

/-!
# What is counted of sessions

The counters of a service tell what sessions it has had. Each session is counted once, under its
outcome, and each file that a session has brought up to date once, as written or as unchanged. The
outcome of a session is found in the error that it ends with, behind any number of imports.
-/

namespace RecordSchema

open Text

namespace Counter

variable (c : Counter) {label other : Text} (n : Nat)

theorem count_add_self (label : Text) : (c.add label n).count label = c.count label + n := by
  rw [add, count, Keyed.lookup_set_self, Option.getD_some]

theorem count_add_of_ne (h : other ≠ label) : (c.add label n).count other = c.count other := by
  rw [add, count, Keyed.lookup_set_of_ne h, count]

theorem total_cons (e : Text × Nat) : total (e :: c) = e.2 + c.total := by
  have hshift : ∀ k : Nat, c.foldl (fun n e => n + e.2) k = k + c.total := by
    unfold total
    induction c with
    | nil => exact fun k => rfl
    | cons d rest ih =>
        intro k
        rw [List.foldl_cons, List.foldl_cons, ih, ih (0 + d.2), Nat.zero_add, Nat.add_assoc]
  rw [total, List.foldl_cons, hshift, Nat.zero_add]

theorem total_add (label : Text) : (c.add label n).total = c.total + n := by
  induction c with
  | nil => simp [add, count, Keyed.set, total]
  | cons e rest ih =>
      obtain ⟨k, v⟩ := e
      unfold add at ih ⊢
      by_cases hk : k = label
      · subst hk
        have hcount : count ((k, v) :: rest) k = v := by simp [count]
        rw [hcount, Keyed.set, if_pos rfl, total_cons, total_cons, Nat.add_right_comm]
      · have hlabel : (label == k) = false := beq_eq_false_iff_ne.mpr (Ne.symm hk)
        have hcount : count ((k, v) :: rest) label = count rest label := by
          rw [count, List.lookup_cons, hlabel, count]
        rw [hcount, Keyed.set, if_neg hk, total_cons, ih, total_cons, Nat.add_assoc]

end Counter

theorem Outcome.name_injective {o o' : Outcome} (h : o.name = o'.name) : o = o' := by
  have hnames :
      ([ok, malformed, permission, tagConflict, unresolvedType, cyclic, importCycle, unwritten,
        other].map name).Nodup := by decide
  exact List.inj_on_of_nodup_map hnames (by cases o <;> decide) (by cases o' <;> decide) h

/-- Whether an error of loading comes from an error in a schema, behind any number of imports. -/
inductive LoadError.Carries (e : SchemaError) : LoadError → Prop where
  | schema : Carries e (.schema e)
  | imported (document reference : Text) {cause : LoadError} (h : Carries e cause) :
      Carries e (.imported document reference cause)

/-- Whether a session fails because of an error in a schema. -/
inductive SessionError.Carries (e : SchemaError) : SessionError → Prop where
  | load {cause : LoadError} (h : cause.Carries e) : Carries e (.load cause)
  | schema : Carries e (.schema e)

/-- The outcome of a session that has failed or not: that of the error in a schema that it comes
from, if it comes from one. -/
inductive Outcome.Describes : Outcome → Option SessionError → Prop where
  | ok : Describes .ok none
  | schema {e : SchemaError} {failure : SessionError} (h : failure.Carries e) :
      Describes e.outcome (some failure)
  | unwritten (path : Text) (cause : OutputError) : Describes .unwritten (some (.store path cause))
  | other {failure : SessionError} (hschema : ∀ e, ¬ failure.Carries e)
      (hstore : ∀ path cause, failure ≠ .store path cause) : Describes .other (some failure)

theorem LoadError.outcome_of_carries {e : SchemaError} {x : LoadError} (h : x.Carries e) :
    x.outcome = e.outcome := by
  induction h with
  | schema => rfl
  | imported document reference _ ih => exact ih

theorem LoadError.exists_carries_or (x : LoadError) :
    (∃ e, x.Carries e) ∨ (∀ e, ¬ x.Carries e) ∧ x.outcome = .other := by
  induction x with
  | schema cause => exact Or.inl ⟨cause, .schema⟩
  | unread path cause =>
      refine Or.inr ⟨fun e h => ?_, rfl⟩
      cases h
  | imported document reference cause ih =>
      rcases ih with ⟨e, h⟩ | ⟨hnone, hother⟩
      · exact Or.inl ⟨e, .imported document reference h⟩
      · refine Or.inr ⟨fun e h => ?_, hother⟩
        cases h with
        | imported _ _ h => exact hnone e h

namespace SessionError

variable {e : SchemaError} {x : SessionError}

theorem outcome_of_carries (h : x.Carries e) : x.outcome = e.outcome := by
  cases h with
  | load h => exact LoadError.outcome_of_carries h
  | schema => rfl

theorem describes_outcome (x : SessionError) : x.outcome.Describes (some x) := by
  cases x with
  | format cause => exact .other (fun e h => by cases h) (fun _ _ h => by cases h)
  | load cause =>
      rcases cause.exists_carries_or with ⟨e, h⟩ | ⟨hnone, hother⟩
      · have hcarries : Carries e (.load cause) := .load h
        rw [outcome_of_carries hcarries]
        exact .schema hcarries
      · rw [outcome, hother]
        refine .other (fun e h => ?_) (fun _ _ h => by cases h)
        cases h with
        | load h => exact hnone e h
  | schema cause => exact .schema .schema
  | unshown format cause => exact .other (fun e h => by cases h) (fun _ _ h => by cases h)
  | store path cause => exact .unwritten path cause

theorem outcome_ne_ok (x : SessionError) : x.outcome ≠ .ok := by
  have hdescribes := x.describes_outcome
  generalize x.outcome = o at hdescribes
  cases hdescribes with
  | @schema e _ _ => cases e <;> exact nofun
  | unwritten path cause => exact nofun
  | other _ _ => exact nofun

end SessionError

/-- The outcome of a session is the one that describes its failure. -/
theorem Session.outcome_eq_iff (r : Session) (o : Outcome) :
    r.outcome = o ↔ o.Describes r.failure := by
  unfold outcome
  constructor
  · rintro rfl
    cases r.failure with
    | none => exact .ok
    | some e => exact e.describes_outcome
  · intro h
    generalize r.failure = failure at h
    cases h with
    | ok => rfl
    | schema h => exact SessionError.outcome_of_carries h
    | unwritten path cause => rfl
    | @other failure hschema hstore =>
        have hdescribes := failure.describes_outcome
        change failure.outcome = .other
        generalize failure.outcome = found at hdescribes
        cases hdescribes with
        | schema h => exact absurd h (hschema _)
        | unwritten path cause => exact absurd rfl (hstore path cause)
        | other _ _ => rfl

theorem Session.outcome_eq_ok_iff (r : Session) : r.outcome = .ok ↔ r.failure = none := by
  unfold outcome
  cases r.failure with
  | none => exact iff_of_true rfl rfl
  | some e => exact iff_of_false e.outcome_ne_ok nofun

instance (o : Outcome) (r : Session) : Decidable (o.Describes r.failure) :=
  decidable_of_iff _ (r.outcome_eq_iff o)

namespace Metrics

variable (m : Metrics)

@[simp] theorem sessions_addEntities (kind : Text) (n : Int) :
    (m.addEntities kind n).sessions = m.sessions := by
  unfold addEntities
  split <;> rfl

@[simp] theorem outputs_addEntities (kind : Text) (n : Int) :
    (m.addEntities kind n).outputs = m.outputs := by
  unfold addEntities
  split <;> rfl

/-- What a build has found is counted apart from sessions and outputs. -/
theorem addBuilt_eq (n : Nat) (b : Bundle) :
    (m.addBuilt n b).sessions = m.sessions ∧ (m.addBuilt n b).outputs = m.outputs := by
  simp [addBuilt, setDocuments]

/-- What a session counts of its output, where `write` tells whether it was to write: a file that
was brought up to date. -/
structure CountsOutput (write : Bool) (r : Session) (m m' : Metrics) : Prop where
  total_eq : m'.outputs.total = m.outputs.total + if write && r.failure.isNone then 1 else 0
  written_eq : m'.outputs.count writtenLabel =
    m.outputs.count writtenLabel + if r.written then 1 else 0
  either_eq : m'.outputs.count writtenLabel + m'.outputs.count unchangedLabel =
    m.outputs.count writtenLabel + m.outputs.count unchangedLabel +
      if write && r.failure.isNone then 1 else 0

/-- What a session counts. -/
structure Counts (write : Bool) (r : Session) (m m' : Metrics) : Prop extends
    CountsOutput write r m m' where
  sessions_eq : m'.sessions = m.sessions.add r.outcome.name 1

variable {m} {m' : Metrics} {write : Bool} {r : Session}

theorem CountsOutput.of_eq (houtputs : m'.outputs = m.outputs)
    (h : (write && r.failure.isNone) = false)
    (hwritten : r.written = false) : CountsOutput write r m m' := by
  constructor
  · rw [houtputs, h]
    rfl
  · rw [houtputs, hwritten]
    rfl
  · rw [houtputs, h]
    rfl

theorem CountsOutput.of_addOutput (houtputs : m'.outputs = (m.addOutput r.written).outputs)
    (hfailure : r.failure = none) : CountsOutput true r m m' := by
  have hlabels : unchangedLabel ≠ writtenLabel := by decide
  unfold addOutput at houtputs
  constructor
  · rw [houtputs, hfailure, Counter.total_add]
    rfl
  · rw [houtputs]
    cases r.written with
    | true => exact Counter.count_add_self _ _ _
    | false => exact Counter.count_add_of_ne _ _ hlabels.symm
  · rw [houtputs, hfailure]
    cases r.written with
    | true =>
        simp only [if_true, Counter.count_add_self, Counter.count_add_of_ne _ _ hlabels]
        exact Nat.add_right_comm _ _ _
    | false =>
        simp only [Bool.false_eq_true, if_false, Counter.count_add_self,
          Counter.count_add_of_ne _ _ hlabels.symm]
        rfl

theorem Counts.sessions_count (h : Counts write r m m') (o : Outcome) :
    m'.sessions.count o.name =
      m.sessions.count o.name + if o.Describes r.failure then 1 else 0 := by
  rw [h.sessions_eq]
  by_cases ho : r.outcome = o
  · rw [if_pos ((r.outcome_eq_iff o).mp ho), ho, Counter.count_add_self]
  · rw [if_neg (mt (r.outcome_eq_iff o).mpr ho), Counter.count_add_of_ne, Nat.add_zero]
    exact fun hname => ho (Outcome.name_injective hname).symm

end Metrics

namespace Service

variable {σ : Type} (env : Surroundings σ) (write canceled : Bool) {m : Metrics}

/-- What delivering can come to: nothing is to be written, writing fails, or it succeeds and is
counted. -/
inductive Delivered (b : Built) (s : Service σ) :
    Bool → Except SessionError (Text × Bool) × Service σ → Prop where
  | unasked : Delivered b s false (.ok ([], false), s)
  | failed (e : SessionError) (state : σ) : Delivered b s true (.error e, { s with state })
  | stored (path : Text) (written : Bool) (state : σ) :
      Delivered b s true
        (.ok (path, written), measure (fun m => m.addOutput written) { s with state })

theorem delivered_deliver (b : Built) (s : Service σ) :
    Delivered b s write (deliver env write b s) := by
  unfold deliver
  cases write with
  | false => exact .unasked
  | true =>
      simp only [if_true]
      rcases store env.storage s.options b s.state with ⟨e | ⟨path, written⟩, state⟩
      · exact .failed e state
      · exact .stored path written state

theorem counts_compile (id root : Text) {s : Service σ} (hm : s.metrics = some m) :
    ∃ m', (compile env write canceled id root s).2.metrics = some m' ∧ m'.sessions = m.sessions ∧
      Metrics.CountsOutput write (compile env write canceled id root s).1 m m' := by
  unfold compile
  simp only
  obtain ⟨x, progress⟩ :=
    Built.ofRoot ((env.storage.source s.state).interrupted canceled) s.options root
  simp only
  rcases (env.arrange s.started).apply x with e | b
  · exact ⟨m, hm, rfl, .of_eq rfl (Bool.and_false write) rfl⟩
  · simp only
    generalize hread : measure _ _ = read
    have hmetrics : read.metrics = some (m.addBuilt progress.documents b.bundle) := by
      rw [← hread, measure, hm]
      rfl
    obtain ⟨hsessions, houtputs⟩ := m.addBuilt_eq progress.documents b.bundle
    have hdelivered := delivered_deliver env write b read
    generalize deliver env write b read = delivered at hdelivered
    cases hdelivered with
    | unasked => exact ⟨_, hmetrics, hsessions, .of_eq houtputs rfl rfl⟩
    | failed e state => exact ⟨_, hmetrics, hsessions, .of_eq houtputs rfl rfl⟩
    | stored path written state =>
        refine ⟨_, congrArg (Option.map _) hmetrics, hsessions, .of_addOutput ?_ rfl⟩
        simp only [Metrics.addOutput, houtputs]

/-- A session is counted under its outcome when it ends. -/
theorem counts_run (root : Text) {s : Service σ} (hm : s.metrics = some m) :
    ∃ m', (run env write canceled root s).2.metrics = some m' ∧
      Metrics.Counts write (run env write canceled root s).1 m m' := by
  obtain ⟨m₁, hm₁, hsessions, houtput⟩ := counts_compile env write canceled
    (env.identify (s.started + 1)) (Source.resolve [] root)
    (show Service.metrics { s with clock := s.clock.read.2, started := s.started + 1 } =
      some m from hm)
  unfold run
  simp only
  generalize compile env write canceled _ _ _ = compiled at hm₁ houtput
  obtain ⟨r, s'⟩ := compiled
  refine ⟨_, congrArg (Option.map _) hm₁, ⟨houtput.total_eq, houtput.written_eq, houtput.either_eq⟩,
    ?_⟩
  simp only [Metrics.session, hsessions]

/-- Sessions of a service one after another, each with whether it was to write. Everything but the
counters may change between them: the documents and files, the options, the clock, and what gets in
the way of a session. -/
inductive History (first : Service σ) : List (Bool × Session) → Service σ → Prop where
  | start : History first [] first
  | session {rs : List (Bool × Session)} {s : Service σ} (h : History first rs s)
      (env : Surroundings σ)
      (write canceled : Bool) (root : Text) :
      History first (rs ++ [(write, (run env write canceled root s).1)])
        (run env write canceled root s).2
  | change {rs : List (Bool × Session)} {s t : Service σ} (h : History first rs s)
      (hmetrics : t.metrics = s.metrics) : History first rs t

end Service

namespace Metrics

/-- Whether the counters tell what sessions there were. -/
structure Tallies (m : Metrics) (rs : List (Bool × Session)) : Prop where
  sessions_total : m.sessions.total = rs.length
  sessions_count : ∀ o : Outcome, m.sessions.count o.name = rs.countP fun r =>
    o.Describes r.2.failure
  outputs_total : m.outputs.total = rs.countP fun r => r.1 && r.2.failure.isNone
  written_count : m.outputs.count writtenLabel = rs.countP fun r => r.2.written
  outputs_count : m.outputs.count writtenLabel + m.outputs.count unchangedLabel =
    rs.countP fun r => r.1 && r.2.failure.isNone

variable {m m' : Metrics} {rs : List (Bool × Session)} {write : Bool} {r : Session}

theorem tallies_nil : Tallies {} [] := ⟨rfl, fun _ => rfl, rfl, rfl, rfl⟩

/-- The counters go on telling what sessions there were when another one is counted. -/
theorem Tallies.concat (h : m.Tallies rs) (hr : Counts write r m m') :
    m'.Tallies (rs ++ [(write, r)]) where
  sessions_total := by
    rw [hr.sessions_eq, Counter.total_add, h.sessions_total, List.length_append,
      List.length_singleton]
  sessions_count := by
    intro o
    rw [hr.sessions_count, h.sessions_count, List.countP_append, List.countP_singleton]
    simp only [decide_eq_true_eq]
  outputs_total := by
    rw [hr.total_eq, h.outputs_total, List.countP_append, List.countP_singleton]
  written_count := by
    rw [hr.written_eq, h.written_count, List.countP_append, List.countP_singleton]
  outputs_count := by
    rw [hr.either_eq, h.outputs_count, List.countP_append, List.countP_singleton]

theorem Tallies.ok_count (h : m.Tallies rs) :
    m.sessions.count "ok" = rs.countP fun r => r.2.failure.isNone := by
  have hok := h.sessions_count .ok
  rw [Outcome.name] at hok
  rw [hok]
  apply List.countP_congr
  intro r _
  rw [decide_eq_true_eq, ← r.2.outcome_eq_iff, r.2.outcome_eq_ok_iff, Option.isNone_iff_eq_none]

end Metrics

namespace Service

variable {σ : Type} {first s : Service σ} {rs : List (Bool × Session)}

theorem History.exists_tallies (hfresh : first.metrics = some {}) (h : History first rs s) :
    ∃ m, s.metrics = some m ∧ m.Tallies rs := by
  induction h with
  | start => exact ⟨{}, hfresh, Metrics.tallies_nil⟩
  | session _ env write canceled root ih =>
      obtain ⟨m, hm, htallies⟩ := ih
      obtain ⟨m', hm', hcounts⟩ := counts_run env write canceled root hm
      exact ⟨m', hm', htallies.concat hcounts⟩
  | change _ hmetrics ih =>
      obtain ⟨m, hm, htallies⟩ := ih
      exact ⟨m, hmetrics.trans hm, htallies⟩

section Deep

/-- A document whose import has an import that is malformed, and one without imports. -/
def deepService : Service Memory :=
  { state :=
      { library := .ofList [("a.yaml", "Import: b.yaml\n"), ("b.yaml", "Import: c.yaml\n"),
          ("c.yaml", "Object\n"), ("d.yaml", "Constant N: 3\n")] }
    options := { directory := "out", format := "json" }
    clock := ⟨0, 1⟩
    metrics := some {} }

def deepSurroundings : Surroundings Memory :=
  { storage := Storage.memory, identify := fun _ => "s" }

/-- The document without imports is compiled twice, and the other one checked. -/
def deepFirst : Session × Service Memory := run deepSurroundings true false "d.yaml" deepService

def deepSecond : Session × Service Memory := run deepSurroundings true false "d.yaml" deepFirst.2

def deepThird : Session × Service Memory := run deepSurroundings false false "a.yaml" deepSecond.2

end Deep

end Service

end RecordSchema
