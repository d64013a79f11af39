import RecordSchema.Proofs.Descriptor.Integrity
import RecordSchema.Proofs.Descriptor.Storage
import RecordSchema.Proofs.Threaded

/-!
# Calls that share a table

The calls that lay out objects share one table, and an object inside another is laid out in the
middle of the other's call. The rules below say what a call does to the table without a bound on the
depth, so that a call ends if and only if the rules derive it. Where the objects of a model can be
ordered, all calls end, in whatever order they are made, and each returns what plain recursion
gives.
-/

namespace RecordSchema

open Text

namespace Layout

theorem exists_threaded_placeAll {σ : Type} (element : Field → StateM σ (Int64 × Int64))
    (fs : List Field) (stop align : Int64) (s : σ) :
    ∃ es, Threaded (StepOf element) fs s es ((placeAll element fs stop align).run s).2 := by
  induction fs generalizing stop align s with
  | nil => exact ⟨[], .nil⟩
  | cons f rest ih =>
      rcases hstep : (element f).run s with ⟨x, s₁⟩
      obtain ⟨es, hrest⟩ := ih ((place f x.1 x.2 stop).offset + (place f x.1 x.2 stop).size)
        (if align < x.2 then x.2 else align) s₁
      refine ⟨x :: es, .cons hstep ?_⟩
      rw [placeAll, run_bind_of_run_eq hstep]
      exact hrest

mutual

/-- The calls that end. From a table, a call on an object returns a layout and leaves a table. -/
inductive Called (m : Model) (pointerSize : Int64) : Object → Table → Layout → Table → Prop where
  | found {o : Object} {table : Table} {l : Layout} (h : table.lookup o.key = some l) :
      Called m pointerSize o table l table
  | made {o : Object} {table table' : Table} {e : Field → Int64 × Int64}
      (h : table.lookup o.key = none)
      (hfields : Threaded (Asked m pointerSize) o.ordered table (o.ordered.map e) table') :
      Called m pointerSize o table (ofElements pointerSize e o)
        ((o.key, ofElements pointerSize e o) :: table')

/-- The size and the alignment of the elements of a field. An object in it is laid out by a call;
there is no rule for one that the model does not have. -/
inductive Asked (m : Model) (pointerSize : Int64) :
    Field → Table → Int64 × Int64 → Table → Prop where
  | flat {f : Field} {table : Table} (hc : f.category ≠ .object) :
      Asked m pointerSize f table (flatElement m f) table
  | object {f : Field} {sub : Object} {table table' : Table} {l : Layout}
      (hc : f.category = .object)
      (hsub : m.object? f.typeKey = some sub) (hcall : Called m pointerSize sub table l table') :
      Asked m pointerSize f table (l.size, l.align) table'

end

variable {m : Model} {pointerSize : Int64} {rank : Object → Nat}

section Measured

variable {f : Field} {x : Int64 × Int64}

theorem category_mem_of_atomic {a : Atomic} (ha : Atomic.ofText? f.typeName = some a)
    (hc : a.category = f.category) : f.category ∈ [Category.signed, .unsigned, .float, .bool] :=
  hc ▸ Atomic.category_mem a (List.mem_of_find?_eq_some ha)

theorem Measured.eq_flatElement (h : Measured m pointerSize f x) (hc : f.category ≠ .object) :
    x = flatElement m f := by
  unfold flatElement
  cases h with
  | string hcategory => rw [hcategory]
  | bytes hcategory => rw [hcategory]
  | enum hcategory => rw [hcategory]
  | bitmask hcategory hb => simp only [hcategory, hb]
  | object hcategory _ _ => exact absurd hcategory hc
  | atomic ha hcategory =>
      have hmem := category_mem_of_atomic ha hcategory
      simp only [List.mem_cons, List.not_mem_nil, or_false] at hmem
      rcases hmem with h | h | h | h <;> simp only [h, ha]

theorem Measured.exists_laidOut (h : Measured m pointerSize f x) (hc : f.category = .object) :
    ∃ sub l, m.object? f.typeKey = some sub ∧ LaidOut m pointerSize sub l ∧
      x = (l.size, l.align) := by
  cases h with
  | object _ hsub hl => exact ⟨_, _, hsub, hl, rfl⟩
  | atomic ha hcategory =>
      have hmem := category_mem_of_atomic ha hcategory
      rw [hc] at hmem
      exact absurd hmem (by decide)
  | _ hcategory => cases hc.symm.trans hcategory

end Measured

/-- There is one layout that plain recursion comes to. -/
theorem LaidOut.eq_plain (hrank : Ranked m rank) {o : Object} (ho : o ∈ m.allObjects) {l : Layout}
    (h : LaidOut m pointerSize o l) : l = plain m pointerSize (rank o + 1) o := by
  induction hn : rank o using Nat.strongRecOn generalizing o l with
  | ind n ih =>
      subst hn
      cases h with
      | @build _ e hfields =>
          refine ofElements_congr fun f hf => ?_
          have hmeasured := hfields f hf
          by_cases hc : f.category = .object
          · obtain ⟨sub, l, hsub, hl, hx⟩ := hmeasured.exists_laidOut hc
            have hin := (mem_of_object?_eq_some hsub).1
            have hlt := hrank o ho f hf hc sub hsub
            rw [hx, elementOf_object _ hc hsub, ih _ hlt hin hl rfl,
              plain_eq_of_rank_lt hrank hin (Nat.lt_succ_self _) hlt]
          · rw [elementOf_flat _ hc]
            exact hmeasured.eq_flatElement hc

/-- Whether calls on an object return its plain layout and leave plain layouts in the table. -/
def ReturnsPlain (m : Model) (pointerSize : Int64) (rank : Object → Nat) (o : Object) : Prop :=
  ∀ table l table', Consistent m pointerSize rank table → Called m pointerSize o table l table' →
    l = plain m pointerSize (rank o + 1) o ∧ Consistent m pointerSize rank table'

section Ranked

variable (hrank : Ranked m rank)

include hrank

theorem Asked.eq_elementOf {o : Object} (ho : o ∈ m.allObjects) {f : Field} (hf : f ∈ o.ordered)
    (hcalls : ∀ sub ∈ m.allObjects, rank sub < rank o → ReturnsPlain m pointerSize rank sub)
    {table table' : Table} {x : Int64 × Int64} (ht : Consistent m pointerSize rank table)
    (h : Asked m pointerSize f table x table') :
    x = elementOf m (plain m pointerSize (rank o)) f ∧ Consistent m pointerSize rank table' := by
  cases h with
  | flat hc => exact ⟨(elementOf_flat _ hc).symm, ht⟩
  | @object _ sub _ _ l hc hsub hcall =>
      have hin := (mem_of_object?_eq_some hsub).1
      have hlt := hrank o ho f hf hc sub hsub
      obtain ⟨hl, ht'⟩ := hcalls sub hin hlt _ _ _ ht hcall
      rw [plain_eq_of_rank_lt hrank hin (Nat.lt_succ_self _) hlt] at hl
      exact ⟨by rw [elementOf_object _ hc hsub, hl], ht'⟩

/-- The elements that are run ask what the rules ask, where `call` is a call by the rules. -/
theorem asked_elementBy (hknown : ∀ o ∈ m.allObjects, ∀ f ∈ o.fields, m.Knows f) {o : Object}
    (ho : o ∈ m.allObjects) {f : Field} (hf : f ∈ o.ordered) {call : Object → StateM Table Layout}
    {table table' : Table} {x : Int64 × Int64}
    (hcalls : ∀ sub ∈ m.allObjects, rank sub < rank o →
      Called m pointerSize sub table ((call sub).run table).1 ((call sub).run table).2)
    (hstep : StepOf (elementBy m call) f table x table') :
    Asked m pointerSize f table x table' := by
  unfold StepOf elementBy at hstep
  by_cases hc : f.category = .object
  · have hfield := hknown o ho f (List.mem_cons_of_mem _ hf)
    simp only [Model.Knows, hc] at hfield
    obtain ⟨sub, hsub, _⟩ := hfield
    have hin := (mem_of_object?_eq_some hsub).1
    have hcalled := hcalls sub hin (hrank o ho f hf hc sub hsub)
    rw [if_pos hc, hsub] at hstep
    cases hstep
    exact .object hc hsub hcalled
  · rw [if_neg hc] at hstep
    cases hstep
    exact .flat hc

variable (hkeys : (m.allObjects.map Object.key).Nodup)

include hkeys

theorem returnsPlain_of_mem {o : Object} (ho : o ∈ m.allObjects) :
    ReturnsPlain m pointerSize rank o := by
  -- Rules that refer to each other have no induction of their own; the rank of the object stands
  -- in.
  induction hn : rank o using Nat.strongRecOn generalizing o with
  | ind n ih =>
      subst hn
      intro table l table' ht h
      cases h with
      | found h => exact ⟨ht o ho l h, ht⟩
      | @made _ _ table₁ e _ hfields =>
          have hcalls : ∀ sub ∈ m.allObjects, rank sub < rank o →
              ReturnsPlain m pointerSize rank sub :=
            fun sub hin hlt => ih (rank sub) hlt hin rfl
          obtain ⟨hsteps, ht₁⟩ := hfields.imp
            (fun f hf t x t' ht hasked => Asked.eq_elementOf hrank ho hf hcalls ht hasked) ht
          have heq : ofElements pointerSize e o = plain m pointerSize (rank o + 1) o :=
            ofElements_congr (List.map_inj_left.mp hsteps.eq_map)
          rw [heq]
          exact ⟨rfl, ht₁.cons hkeys ho⟩

theorem eq_map_plain_of_threaded {os : List Object} (hos : os ⊆ m.allObjects) {ls : List Layout}
    {table table' : Table} (ht : Consistent m pointerSize rank table)
    (hrun : Threaded (Called m pointerSize) os table ls table') :
    ls = os.map fun o => plain m pointerSize (rank o + 1) o := by
  have hplain := hrun.imp (fun o ho => returnsPlain_of_mem hrank hkeys (hos ho)) ht
  exact hplain.1.eq_map

variable (hknown : ∀ o ∈ m.allObjects, ∀ f ∈ o.fields, m.Knows f)

include hknown

/-- Placing the fields of an object, where `call` is a call by the rules, asks for them one after
another what plain recursion gives. -/
theorem threaded_asked_placeAll {o : Object} (ho : o ∈ m.allObjects)
    {call : Object → StateM Table Layout}
    (hcalls : ∀ sub ∈ m.allObjects, rank sub < rank o → ∀ t, Consistent m pointerSize rank t →
      Called m pointerSize sub t ((call sub).run t).1 ((call sub).run t).2)
    (stop align : Int64) {table : Table} (ht : Consistent m pointerSize rank table) :
    Threaded (Asked m pointerSize) o.ordered table
      (o.ordered.map (elementOf m (plain m pointerSize (rank o))))
      ((placeAll (elementBy m call) o.ordered stop align).run table).2 := by
  have hplain : ∀ f ∈ o.ordered, ∀ t x t', Consistent m pointerSize rank t →
      Asked m pointerSize f t x t' →
        x = elementOf m (plain m pointerSize (rank o)) f ∧ Consistent m pointerSize rank t' :=
    fun f hf t x t' ht hasked => Asked.eq_elementOf hrank ho hf
      (fun sub hin _ => returnsPlain_of_mem hrank hkeys hin) ht hasked
  have hasks : ∀ f ∈ o.ordered, ∀ t x t', Consistent m pointerSize rank t →
      StepOf (elementBy m call) f t x t' →
        Asked m pointerSize f t x t' ∧ Consistent m pointerSize rank t' := by
    intro f hf t x t' ht hstep
    have hasked :=
      asked_elementBy hrank hknown ho hf (fun sub hin hlt => hcalls sub hin hlt t ht) hstep
    exact ⟨hasked, (hplain f hf t x t' ht hasked).2⟩
  obtain ⟨es, hsteps⟩ := exists_threaded_placeAll (elementBy m call) o.ordered stop align table
  obtain ⟨hasked, _⟩ := hsteps.imp hasks ht
  rwa [(hasked.imp hplain ht).1.eq_map] at hasked

/-- With a bound above the rank of the object, a call that is run is one that ends. -/
theorem called_ofObject {fuel : Nat} {o : Object} (ho : o ∈ m.allObjects) (hfuel : rank o < fuel)
    {table : Table} (ht : Consistent m pointerSize rank table) :
    Called m pointerSize o table ((ofObject m pointerSize fuel o).run table).1
      ((ofObject m pointerSize fuel o).run table).2 := by
  induction fuel generalizing o table with
  | zero => omega
  | succ fuel ih =>
      obtain ⟨table', hrun, _⟩ := ofObject_run hrank hkeys ho hfuel ht
      rw [ofObject_succ_run] at hrun ⊢
      cases hfound : table.lookup o.key with
      | some l => exact .found hfound
      | none =>
          simp only [hfound] at hrun ⊢
          rw [(Prod.mk.inj hrun).1]
          exact .made hfound (threaded_asked_placeAll hrank hkeys hknown ho
            (fun sub hin hlt t ht => ih hin (by omega) ht) _ _ ht)

theorem threaded_called_mapM {fuel : Nat} (hfuel : ∀ o ∈ m.allObjects, rank o < fuel)
    {os : List Object} (hos : os ⊆ m.allObjects) {table : Table}
    (ht : Consistent m pointerSize rank table) :
    Threaded (Called m pointerSize) os table ((os.mapM (ofObject m pointerSize fuel)).run table).1
      ((os.mapM (ofObject m pointerSize fuel)).run table).2 := by
  refine ((threaded_mapM (ofObject m pointerSize fuel) os table).imp ?_ ht).1
  intro o ho t l t' ht hstep
  have hin := hos ho
  have hcall := called_ofObject hrank hkeys hknown hin (hfuel o hin) ht
  rw [hstep] at hcall
  exact ⟨hcall, (returnsPlain_of_mem hrank hkeys hin t l t' ht hcall).2⟩

end Ranked

variable (m pointerSize rank) in
theorem consistent_nil : Consistent m pointerSize rank [] := by
  intro o _ l hl
  cases hl

end Layout

/-- In a resolved model whose objects can be ordered, plain recursion comes to one layout of each
object. Calls in any order that share a table, which is empty at first, end and return these
layouts, and so does what is run. -/
theorem Model.calls_return_laidOut {source : Source} {root : Text} {p : Program} {m : Model}
    (hload : (Program.load source root).1 = .ok p) (h : resolve p = .ok m) {sorted : List Object}
    (hsorted : Object.order m.allObjects = .ok sorted) (size : Int) :
    ∃ layoutOf : Object → Layout,
      (∀ o ∈ m.allObjects, ∀ l,
        Layout.LaidOut m (Layout.effectivePointerSize size) o l ↔ l = layoutOf o) ∧
      ∀ os ⊆ m.allObjects,
        (∃ table, Threaded (Layout.Called m (Layout.effectivePointerSize size)) os []
            (os.map layoutOf) table ∧
          (os.mapM
            (Layout.ofObject m (Layout.effectivePointerSize size) m.allObjects.length)).run [] =
            (os.map layoutOf, table)) ∧
        (∀ ls table, Threaded (Layout.Called m (Layout.effectivePointerSize size)) os [] ls table →
          ls = os.map layoutOf) ∧
        Layout.ofObjects m size os = os.map fun o => (o, layoutOf o) := by
  have hfrom := Program.loadedFrom_of_load hload
  have hkeys := nodup_key_allObjects hfrom.loaded h
  have hknown := (isClosed_of_resolve hfrom h).knows
  obtain ⟨rank, hrank, hbound⟩ := exists_rank hfrom.loaded h hsorted
  refine ⟨fun o => Layout.plain m (Layout.effectivePointerSize size) (rank o + 1) o, ?_, ?_⟩
  · intro o ho l
    constructor
    · exact Layout.LaidOut.eq_plain hrank ho
    · rintro rfl
      exact Layout.laidOut_plain hrank hknown ho (Nat.lt_succ_self _)
  · intro os hos
    have hempty := Layout.consistent_nil m (Layout.effectivePointerSize size) rank
    have hrun := Layout.threaded_called_mapM hrank hkeys hknown hbound hos hempty
    have hlayouts := Layout.eq_map_plain_of_threaded hrank hkeys hos hempty hrun
    refine ⟨⟨_, hlayouts ▸ hrun, Prod.ext hlayouts rfl⟩, ?_, ?_⟩
    · intro ls table hcalls
      exact Layout.eq_map_plain_of_threaded hrank hkeys hos hempty hcalls
    · rw [Layout.ofObjects_eq hrank hkeys hbound size fun o ho => hos ho]
      refine List.map_congr_left fun o ho => ?_
      rw [Layout.plain_eq_of_rank_lt hrank (hos ho) (hbound o (hos ho)) (Nat.lt_succ_self _)]

/-- An object with an imported one in it, which has a third one in it. -/
def nestedDocuments : Library :=
  .ofList [("a.yaml", "Import: b.yaml\nObject A:\n b[2]: B\n"),
    ("b.yaml", "Object C:\n n: u16\nObject B:\n c[3]: C\n")]

/-- The outermost object is laid out first and once more later. -/
theorem Model.calls_return_laidOut_nested :
    ∃ p m sorted a b c, (Program.load nestedDocuments.source "a.yaml").1 = .ok p ∧
      resolve p = .ok m ∧
      Object.order m.allObjects = .ok sorted ∧ m.object? "a.A" = some a ∧ m.object? "b.B" = some b ∧
      m.object? "b.C" = some c ∧
      (Layout.ofObjects m 4 [a, c, a, b]).map (fun x => x.2.size.toInt) = [216, 24, 216, 96] ∧
      ∃ la lb lc table, Threaded (Layout.Called m 4) [a, c, a, b] [] [la, lc, la, lb] table ∧
        Layout.LaidOut m 4 a la ∧ Layout.LaidOut m 4 b lb ∧ Layout.LaidOut m 4 c lc := by
  have hok : (do
      let p ← (Program.load nestedDocuments.source "a.yaml").1.toOption
      let m ← (resolve p).toOption
      let _ ← (Object.order m.allObjects).toOption
      let a ← m.object? "a.A"
      let b ← m.object? "b.B"
      let c ← m.object? "b.C"
      return (Layout.ofObjects m 4 [a, c, a, b]).map fun x => x.2.size.toInt) =
      some [216, 24, 216, 96] := by decide +kernel
  obtain ⟨p, hp, hok⟩ := Option.bind_eq_some_iff.mp hok
  obtain ⟨m, hm, hok⟩ := Option.bind_eq_some_iff.mp hok
  obtain ⟨sorted, hsorted, hok⟩ := Option.bind_eq_some_iff.mp hok
  obtain ⟨a, ha, hok⟩ := Option.bind_eq_some_iff.mp hok
  obtain ⟨b, hb, hok⟩ := Option.bind_eq_some_iff.mp hok
  obtain ⟨c, hc, hok⟩ := Option.bind_eq_some_iff.mp hok
  have hload := eq_ok_of_toOption_eq_some hp
  have hm := eq_ok_of_toOption_eq_some hm
  have hsorted := eq_ok_of_toOption_eq_some hsorted
  have hain := (Layout.mem_of_object?_eq_some ha).1
  have hbin := (Layout.mem_of_object?_eq_some hb).1
  have hcin := (Layout.mem_of_object?_eq_some hc).1
  obtain ⟨layoutOf, hplain, hcalls⟩ := calls_return_laidOut hload hm hsorted 4
  obtain ⟨⟨table, hrun, _⟩, _⟩ := hcalls [a, c, a, b] (by simp [hain, hbin, hcin])
  exact ⟨p, m, sorted, a, b, c, hload, hm, hsorted, ha, hb, hc, Option.some.inj hok, layoutOf a,
    layoutOf b, layoutOf c, table, hrun, (hplain a hain _).mpr rfl, (hplain b hbin _).mpr rfl,
    (hplain c hcin _).mpr rfl⟩

end RecordSchema
