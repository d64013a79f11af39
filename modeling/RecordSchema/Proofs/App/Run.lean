import RecordSchema.App

/-!
# Runs of an application

What can happen to a running application, one operation after another: sessions, edits of the files
it reads, changes of the environment, listeners that register and settings that are loaded again.
-/

namespace RecordSchema

open Text

namespace App

variable {σ : Type}

/-- What can happen to an application. While settings are loaded again, `reaction` gives what each
listener registers when it is told. -/
inductive Operation (σ : Type) where
  | session (write canceled : Bool) (root : Text)
  | edit (change : σ → σ)
  | environment (env : Environment)
  | listen (name : Text)
  | reload (reaction : Text → Settings → List Text)

/-- An application in its environment. -/
structure World (σ : Type) where
  app : App σ
  env : Environment

/-- What an operation shows. -/
structure Report (σ : Type) where
  /-- The session that was run, with the state that it started from. -/
  session : Option (Session × σ) := none
  reload : Option Reload := none
  /-- The listeners that were registered, in order. -/
  registered : List Text := []

namespace World

def step (machine : Machine σ) (w : World σ) : Operation σ → Report σ × World σ
  | .session write canceled root =>
    let (session, app) := w.app.run machine write canceled root
    ({ session := some (session, w.app.service.state) }, { w with app })
  | .edit change =>
    let service := { w.app.service with state := change w.app.service.state }
    ({}, { w with app := { w.app with service } })
  | .environment env => ({}, { w with env })
  | .listen name =>
    ({ registered := [name] }, { w with app := { w.app with holder := w.app.holder.listen name } })
  | .reload reaction =>
    let (r, app) := w.app.reload machine w.env reaction
    let registered := r.told.flatMap fun name => reaction name app.holder.settings
    ({ reload := some r, registered }, { w with app })

/-- Carries out operations one after another. -/
def run (machine : Machine σ) : List (Operation σ) → World σ → List (Report σ) × World σ
  | [], w => ([], w)
  | op :: rest, w =>
    let (report, w) := w.step machine op
    let (reports, w) := run machine rest w
    (report :: reports, w)

/-- What holds of the reports so far and goes on holding with each operation holds after every
run. -/
theorem run_induction (machine : Machine σ) {P : List (Report σ) → World σ → Prop}
    (hstep : ∀ reports w op, P reports w →
      P (reports ++ [(w.step machine op).1]) (w.step machine op).2)
    {w : World σ} (h : P [] w) (ops : List (Operation σ)) :
    P (run machine ops w).1 (run machine ops w).2 := by
  suffices hrun : ∀ reports w, P reports w →
      P (reports ++ (run machine ops w).1) (run machine ops w).2 from hrun [] w h
  clear h w
  induction ops with
  | nil =>
      intro reports w h
      rwa [run, List.append_nil]
  | cons op rest ih =>
      intro reports w h
      have hrest := ih _ _ (hstep reports w op h)
      rwa [List.append_assoc] at hrest

end World

end App

end RecordSchema
