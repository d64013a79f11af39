/-!
# Steps that share a state

Steps one after the other, each from the state in which the one before it ends. What each step keeps
of the state holds all along, and what it returns then can be told without the state.
-/

namespace RecordSchema

variable {α β σ : Type}

/-- Steps one after the other, each from the state in which the one before it ends. -/
inductive Threaded (step : α → σ → β → σ → Prop) : List α → σ → List β → σ → Prop where
  | nil {s : σ} : Threaded step [] s [] s
  | cons {a : α} {as : List α} {b : β} {bs : List β} {s s₁ s₂ : σ} (head : step a s b s₁)
      (tail : Threaded step as s₁ bs s₂) : Threaded step (a :: as) s (b :: bs) s₂

/-- The steps that an action takes. -/
def StepOf (f : α → StateM σ β) (a : α) (s : σ) (b : β) (s' : σ) : Prop :=
  (f a).run s = (b, s')

variable {R Q : α → σ → β → σ → Prop} {P : σ → Prop} {as : List α} {bs : List β} {s s' : σ}

/-- What holds of each step from a state with `P`, which it keeps, holds of all steps of a run. -/
theorem Threaded.imp (h : ∀ a ∈ as, ∀ s b s', P s → R a s b s' → Q a s b s' ∧ P s')
    (hrun : Threaded R as s bs s') (hs : P s) : Threaded Q as s bs s' ∧ P s' := by
  induction hrun with
  | nil => exact ⟨.nil, hs⟩
  | @cons a as b bs s s₁ s₂ head tail ih =>
      obtain ⟨hstep, hs₁⟩ := h a List.mem_cons_self s b s₁ hs head
      obtain ⟨hrest, hs₂⟩ := ih (fun c hc => h c (List.mem_cons_of_mem a hc)) hs₁
      exact ⟨.cons hstep hrest, hs₂⟩

theorem Threaded.eq_map {g : α → β} (hrun : Threaded (fun a _ b _ => b = g a) as s bs s') :
    bs = as.map g := by
  induction hrun with
  | nil => rfl
  | cons head _ ih => rw [List.map_cons, head, ih]

theorem threaded_mapM (f : α → StateM σ β) (as : List α) (s : σ) :
    Threaded (StepOf f) as s ((as.mapM f).run s).1 ((as.mapM f).run s).2 := by
  induction as generalizing s with
  | nil =>
      rw [List.mapM_nil]
      exact .nil
  | cons a as ih =>
      rw [List.mapM_cons]
      exact .cons rfl (ih ((f a).run s).2)

end RecordSchema
