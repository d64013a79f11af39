import Mathlib.Data.List.Nodup
import RecordSchema.Descriptor.Storage
import RecordSchema.Proofs.Keyed

/-!
# Layouts by plain recursion

The table of layouts only saves work. Where objects can be ranked so that each holds objects of
lower rank alone, every layout is the one that plain recursion gives, and a greater bound on the
depth of the recursion does not change it.
-/

namespace RecordSchema.Layout

open Text

/-- The members of fields in order, after those that end at `stop`, with the end of the last one
and the greatest alignment. -/
def placed (element : Field → Int64 × Int64) : List Field → (stop align : Int64) →
    List (Text × Member) × Int64 × Int64
  | [], stop, align => ([], stop, align)
  | f :: rest, stop, align =>
    let m := place f (element f).1 (element f).2 stop
    let more := placed element rest (m.offset + m.size)
      (if align < (element f).2 then (element f).2 else align)
    ((f.name, m) :: more.1, more.2)

/-- The layout of an object, given the size and the alignment of its elements. -/
def ofElements (pointerSize : Int64) (element : Field → Int64 × Int64) (o : Object) : Layout :=
  let header := headerOf pointerSize o.fields.length
  let identifier : Member :=
    { offset := header.identifierOffset, size := identifierSize, elementSize := identifierSize }
  let align := if pointerSize < identifierSize then identifierSize else pointerSize
  let more := placed element o.ordered (header.maskOffset + header.maskSize) align
  { header, members := (o.identifier.name, identifier) :: more.1,
    size := alignUp more.2.1 more.2.2, align := more.2.2 }

/-- The size and the alignment of an element, given the layouts of objects. -/
def elementOf (m : Model) (layoutOf : Object → Layout) (f : Field) : Int64 × Int64 :=
  if f.category = .object then
    match m.object? f.typeKey with
    | some sub => ((layoutOf sub).size, (layoutOf sub).align)
    | none => (0, 0)
  else flatElement m f

/-- The layout of an object in which objects are laid out again wherever they occur. -/
def plain (m : Model) (pointerSize : Int64) : (fuel : Nat) → Object → Layout
  | 0, o => ofElements pointerSize (flatElement m) o
  | fuel + 1, o => ofElements pointerSize (elementOf m (plain m pointerSize fuel)) o

theorem placed_congr {e e' : Field → Int64 × Int64} {fs : List Field} {stop align : Int64}
    (h : ∀ f ∈ fs, e f = e' f) : placed e fs stop align = placed e' fs stop align := by
  induction fs generalizing stop align with
  | nil => rfl
  | cons f rest ih =>
      have hrest : ∀ g ∈ rest, e g = e' g := fun g hg => h g (List.mem_cons_of_mem f hg)
      simp only [placed, h f List.mem_cons_self, ih hrest]

theorem ofElements_congr {pointerSize : Int64} {e e' : Field → Int64 × Int64} {o : Object}
    (h : ∀ f ∈ o.ordered, e f = e' f) :
    ofElements pointerSize e o = ofElements pointerSize e' o := by
  simp only [ofElements, placed_congr h]

section Member

variable {e : Field → Int64 × Int64} {fs : List Field} {f : Field}

theorem map_fst_placed (stop align : Int64) :
    (placed e fs stop align).1.map Prod.fst = fs.map Field.name := by
  induction fs generalizing stop align with
  | nil => rfl
  | cons g rest ih => rw [placed, List.map_cons, List.map_cons, ih]

theorem elementSize_place (f : Field) (size align stop : Int64) :
    (place f size align stop).elementSize = size := by
  unfold place
  split <;> rfl

theorem exists_mem_placed (hf : f ∈ fs) (stop align : Int64) :
    ∃ before, (f.name, place f (e f).1 (e f).2 before) ∈ (placed e fs stop align).1 := by
  induction fs generalizing stop align with
  | nil => cases hf
  | cons g rest ih =>
      rcases List.mem_cons.mp hf with rfl | hf
      · exact ⟨stop, List.mem_cons_self⟩
      · obtain ⟨before, hmem⟩ := ih hf
          ((place g (e g).1 (e g).2 stop).offset + (place g (e g).1 (e g).2 stop).size)
          (if align < (e g).2 then (e g).2 else align)
        exact ⟨before, List.mem_cons_of_mem _ hmem⟩

/-- The member of a field is placed with the size and the alignment that the field asks for. -/
theorem exists_member_eq {o : Object} (hnames : (o.fields.map Field.name).Nodup)
    (hf : f ∈ o.ordered) (pointerSize : Int64) :
    ∃ before, (ofElements pointerSize e o).member f.name = place f (e f).1 (e f).2 before := by
  have hkeys : ((ofElements pointerSize e o).members.map Prod.fst).Nodup := by
    simp only [ofElements, List.map_cons, map_fst_placed]
    exact hnames
  obtain ⟨before, hplaced⟩ := exists_mem_placed (e := e) hf
    ((headerOf pointerSize o.fields.length).maskOffset +
      (headerOf pointerSize o.fields.length).maskSize)
    (if pointerSize < identifierSize then identifierSize else pointerSize)
  have hmem : (f.name, place f (e f).1 (e f).2 before) ∈ (ofElements pointerSize e o).members :=
    List.mem_cons_of_mem _ hplaced
  exact ⟨before, by rw [member, lookup_eq_some_of_mem hkeys hmem, Option.getD_some]⟩

/-- The member of a field has elements of the size that the field asks for. -/
theorem elementSize_member {o : Object} (hnames : (o.fields.map Field.name).Nodup)
    (hf : f ∈ o.ordered) (pointerSize : Int64) :
    ((ofElements pointerSize e o).member f.name).elementSize = (e f).1 := by
  obtain ⟨before, hmember⟩ := exists_member_eq (e := e) hnames hf pointerSize
  rw [hmember, elementSize_place]

end Member

section Element

variable {m : Model} {f : Field}

theorem mem_of_object?_eq_some {key : Text} {o : Object} (h : m.object? key = some o) :
    o ∈ m.allObjects ∧ o.key = key :=
  ⟨List.mem_of_find?_eq_some h, by simpa using List.find?_some h⟩

theorem elementOf_object (layoutOf : Object → Layout) (hc : f.category = .object) {sub : Object}
    (h : m.object? f.typeKey = some sub) :
    elementOf m layoutOf f = ((layoutOf sub).size, (layoutOf sub).align) := by
  rw [elementOf, if_pos hc, h]

theorem elementOf_flat (layoutOf : Object → Layout) (hc : f.category ≠ .object) :
    elementOf m layoutOf f = flatElement m f := by
  rw [elementOf, if_neg hc]

theorem elementOf_congr {layoutOf layoutOf' : Object → Layout}
    (h : f.category = .object → ∀ sub, m.object? f.typeKey = some sub →
      layoutOf sub = layoutOf' sub) :
    elementOf m layoutOf f = elementOf m layoutOf' f := by
  by_cases hc : f.category = .object
  · cases hsub : m.object? f.typeKey with
    | none => rw [elementOf, elementOf, if_pos hc, if_pos hc, hsub]
    | some sub =>
        rw [elementOf_object _ hc hsub, elementOf_object _ hc hsub, h hc sub hsub]
  · rw [elementOf_flat _ hc, elementOf_flat _ hc]

end Element

section Agree

variable {m m' : Model} {f : Field}

theorem flatElement_congr
    (h : f.category = .bitmask → m'.bitmask? f.typeKey = m.bitmask? f.typeKey) :
    flatElement m' f = flatElement m f := by
  unfold flatElement
  cases hc : f.category with
  | bitmask => rw [h hc]
  | _ => rfl

/-- Whether a model gives the fields of its objects the same types as another. -/
structure AgreesWith (m' m : Model) : Prop where
  object_eq : ∀ o ∈ m'.allObjects, ∀ f ∈ o.ordered, f.category = .object →
    m'.object? f.typeKey = m.object? f.typeKey
  bitmask_eq : ∀ o ∈ m'.allObjects, ∀ f ∈ o.ordered, f.category = .bitmask →
    m'.bitmask? f.typeKey = m.bitmask? f.typeKey

/-- The plain layout of an object depends only on the definitions that the object refers to. -/
theorem plain_eq_of_agreesWith (h : AgreesWith m' m) (pointerSize : Int64) (fuel : Nat) {o : Object}
    (ho : o ∈ m'.allObjects) : plain m' pointerSize fuel o = plain m pointerSize fuel o := by
  have hflat : ∀ f ∈ o.ordered, flatElement m' f = flatElement m f :=
    fun f hf => flatElement_congr (h.bitmask_eq o ho f hf)
  induction fuel generalizing o with
  | zero => exact ofElements_congr hflat
  | succ fuel ih =>
      apply ofElements_congr
      intro f hf
      by_cases hc : f.category = .object
      · have hsame := h.object_eq o ho f hf hc
        cases hsub : m'.object? f.typeKey with
        | none => rw [elementOf, elementOf, if_pos hc, if_pos hc, ← hsame, hsub]
        | some sub =>
            have hin := (mem_of_object?_eq_some hsub).1
            have hsub' := hsame.symm.trans hsub
            rw [elementOf_object _ hc hsub, elementOf_object _ hc hsub',
              ih hin fun g hg => flatElement_congr (h.bitmask_eq sub hin g hg)]
      · rw [elementOf_flat _ hc, elementOf_flat _ hc, hflat f hf]

end Agree

section Runs

variable {σ : Type} {P : σ → Prop} {element : Field → StateM σ (Int64 × Int64)}
variable {e : Field → Int64 × Int64} {s : σ}

theorem run_bind_of_run_eq {α β : Type} {x : StateM σ α} {f : α → StateM σ β} {a : α} {s₁ : σ}
    (hx : x.run s = (a, s₁)) : (x >>= f).run s = (f a).run s₁ := by
  rw [StateT.run_bind, hx]
  rfl

theorem mapM_run {α β : Type} {f : α → StateM σ β} {g : α → β} {as : List α}
    (hf : ∀ a ∈ as, ∀ s, P s → ∃ s', (f a).run s = (g a, s') ∧ P s') (hs : P s) :
    ∃ s', (as.mapM f).run s = (as.map g, s') ∧ P s' := by
  induction as generalizing s with
  | nil => exact ⟨s, by rw [List.mapM_nil]; rfl, hs⟩
  | cons a rest ih =>
      obtain ⟨s₁, ha, hs₁⟩ := hf a List.mem_cons_self s hs
      obtain ⟨s', hrest, hs'⟩ := ih (fun b hb => hf b (List.mem_cons_of_mem a hb)) hs₁
      refine ⟨s', ?_, hs'⟩
      rw [List.mapM_cons, run_bind_of_run_eq ha]
      exact run_bind_of_run_eq hrest

/-- Where each element is what `e` says and keeps what holds of the state, so do the members. -/
theorem placeAll_run {fs : List Field}
    (he : ∀ f ∈ fs, ∀ s, P s → ∃ s', (element f).run s = (e f, s') ∧ P s') (stop align : Int64)
    (hs : P s) :
    ∃ s', (placeAll element fs stop align).run s = (placed e fs stop align, s') ∧ P s' := by
  induction fs generalizing stop align s with
  | nil => exact ⟨s, rfl, hs⟩
  | cons f rest ih =>
      have hrest : ∀ g ∈ rest, ∀ s, P s → ∃ s', (element g).run s = (e g, s') ∧ P s' :=
        fun g hg => he g (List.mem_cons_of_mem f hg)
      obtain ⟨s₁, hf, hs₁⟩ := he f List.mem_cons_self s hs
      obtain ⟨s', hmore, hs'⟩ := ih hrest
        ((place f (e f).1 (e f).2 stop).offset + (place f (e f).1 (e f).2 stop).size)
        (if align < (e f).2 then (e f).2 else align) hs₁
      refine ⟨s', ?_, hs'⟩
      rw [placeAll, run_bind_of_run_eq hf]
      exact run_bind_of_run_eq hmore

theorem build_run (pointerSize : Int64) {o : Object}
    (he : ∀ f ∈ o.ordered, ∀ s, P s → ∃ s', (element f).run s = (e f, s') ∧ P s') (hs : P s) :
    ∃ s', (build pointerSize element o).run s = (ofElements pointerSize e o, s') ∧ P s' := by
  obtain ⟨s', hrun, hs'⟩ := placeAll_run he
    ((headerOf pointerSize o.fields.length).maskOffset +
      (headerOf pointerSize o.fields.length).maskSize)
    (if pointerSize < identifierSize then identifierSize else pointerSize) hs
  exact ⟨s', run_bind_of_run_eq hrun, hs'⟩

end Runs

section Ranked

/-- Whether objects hold objects of lower rank alone. -/
def Ranked (m : Model) (rank : Object → Nat) : Prop :=
  ∀ o ∈ m.allObjects, ∀ f ∈ o.ordered, f.category = .object →
    ∀ sub, m.object? f.typeKey = some sub → rank sub < rank o

variable {m : Model} {rank : Object → Nat} {pointerSize : Int64}

theorem plain_eq_of_rank_lt (hrank : Ranked m rank) {fuel fuel' : Nat} {o : Object}
    (ho : o ∈ m.allObjects) (hf : rank o < fuel) (hf' : rank o < fuel') :
    plain m pointerSize fuel o = plain m pointerSize fuel' o := by
  induction fuel generalizing fuel' o with
  | zero => omega
  | succ fuel ih =>
      obtain ⟨fuel', rfl⟩ : ∃ k, fuel' = k + 1 := ⟨fuel' - 1, by omega⟩
      refine ofElements_congr fun f hmem => elementOf_congr ?_
      intro hc sub hsub
      have hlt := hrank o ho f hmem hc sub hsub
      have hin := (mem_of_object?_eq_some hsub).1
      exact ih hin (by omega) (by omega)

/-- The elements of a field that holds an object have the size of that object. -/
theorem elementSize_plain (hrank : Ranked m rank) {fuel : Nat} {o sub : Object}
    (ho : o ∈ m.allObjects) (hfuel : rank o < fuel) (hnames : (o.fields.map Field.name).Nodup)
    {f : Field} (hf : f ∈ o.ordered) (hc : f.category = .object)
    (hsub : m.object? f.typeKey = some sub) :
    ((plain m pointerSize fuel o).member f.name).elementSize =
      (plain m pointerSize fuel sub).size := by
  have hlt := hrank o ho f hf hc sub hsub
  have hin := (mem_of_object?_eq_some hsub).1
  obtain ⟨fuel, rfl⟩ : ∃ k, fuel = k + 1 := ⟨fuel - 1, by omega⟩
  have hsame : plain m pointerSize fuel sub = plain m pointerSize (fuel + 1) sub :=
    plain_eq_of_rank_lt hrank hin (by omega) (by omega)
  calc ((plain m pointerSize (fuel + 1) o).member f.name).elementSize
      = (elementOf m (plain m pointerSize fuel) f).1 := elementSize_member hnames hf pointerSize
    _ = (plain m pointerSize fuel sub).size := by rw [elementOf_object _ hc hsub]
    _ = (plain m pointerSize (fuel + 1) sub).size := by rw [hsame]

/-- Whether a table holds the plain layouts of objects. -/
def Consistent (m : Model) (pointerSize : Int64) (rank : Object → Nat) (table : Table) : Prop :=
  ∀ o ∈ m.allObjects, ∀ l, table.lookup o.key = some l → l = plain m pointerSize (rank o + 1) o

theorem Consistent.cons (hkeys : (m.allObjects.map Object.key).Nodup) {table : Table}
    (h : Consistent m pointerSize rank table) {o : Object} (ho : o ∈ m.allObjects) :
    Consistent m pointerSize rank ((o.key, plain m pointerSize (rank o + 1) o) :: table) := by
  intro o' ho' l hl
  rw [List.lookup_cons] at hl
  split at hl
  · next heq =>
      have hoo := List.inj_on_of_nodup_map hkeys ho' ho (by simpa using heq)
      cases hl
      rw [hoo]
  · exact h o' ho' l hl

/-- The size and the alignment of an element, where `load` lays out objects with the table. -/
def elementBy (m : Model) (load : Object → StateM Table Layout) (f : Field) :
    StateM Table (Int64 × Int64) := do
  if f.category = .object then
    match m.object? f.typeKey with
    | some sub =>
      let l ← load sub
      return (l.size, l.align)
    | none => return (0, 0)
  else return flatElement m f

theorem ofObject_succ_run (fuel : Nat) (o : Object) (table : Table) :
    (ofObject m pointerSize (fuel + 1) o).run table =
      match table.lookup o.key with
      | some l => (l, table)
      | none =>
        let r := (build pointerSize (elementBy m (ofObject m pointerSize fuel)) o).run table
        (r.1, (o.key, r.1) :: r.2) := by
  rw [ofObject]
  change (match table.lookup o.key with
    | some l => (pure l : StateM Table Layout)
    | none => build pointerSize (elementBy m (ofObject m pointerSize fuel)) o >>= fun l =>
      modify (fun table => (o.key, l) :: table) >>= fun _ => pure l).run table = _
  cases table.lookup o.key with
  | some l => rfl
  | none => rfl

/-- The table keeps plain layouts, and what is taken from it is one. -/
theorem ofObject_run (hrank : Ranked m rank) (hkeys : (m.allObjects.map Object.key).Nodup)
    {fuel : Nat} {o : Object} (ho : o ∈ m.allObjects) (hf : rank o < fuel) {table : Table}
    (ht : Consistent m pointerSize rank table) :
    ∃ table', (ofObject m pointerSize fuel o).run table =
        (plain m pointerSize (rank o + 1) o, table') ∧
      Consistent m pointerSize rank table' := by
  induction fuel generalizing o table with
  | zero => omega
  | succ fuel ih =>
      rw [ofObject_succ_run]
      cases hfound : table.lookup o.key with
      | some l => exact ⟨table, by rw [ht o ho l hfound], ht⟩
      | none =>
          have helement : ∀ f ∈ o.ordered, ∀ t, Consistent m pointerSize rank t →
              ∃ t', (elementBy m (ofObject m pointerSize fuel) f).run t =
                  (elementOf m (plain m pointerSize (rank o)) f, t') ∧
                Consistent m pointerSize rank t' := by
            intro f hmem t hcons
            unfold elementBy elementOf
            by_cases hc : f.category = .object
            · rw [if_pos hc, if_pos hc]
              cases hsub : m.object? f.typeKey with
              | none => exact ⟨t, rfl, hcons⟩
              | some sub =>
                  have hlt := hrank o ho f hmem hc sub hsub
                  have hin := (mem_of_object?_eq_some hsub).1
                  obtain ⟨t', hrun, ht'⟩ := ih hin (show rank sub < fuel by omega) hcons
                  rw [plain_eq_of_rank_lt hrank hin (Nat.lt_succ_self _) hlt] at hrun
                  exact ⟨t', run_bind_of_run_eq hrun, ht'⟩
            · rw [if_neg hc, if_neg hc]
              exact ⟨t, rfl, hcons⟩
          obtain ⟨t', hrun, ht'⟩ := build_run pointerSize helement ht
          refine ⟨_, ?_, ht'.cons hkeys ho⟩
          simp only [hrun]
          rfl

theorem ofObjects_eq (hrank : Ranked m rank) (hkeys : (m.allObjects.map Object.key).Nodup)
    (hbound : ∀ o ∈ m.allObjects, rank o < m.allObjects.length) (size : Int) {os : List Object}
    (hos : ∀ o ∈ os, o ∈ m.allObjects) :
    ofObjects m size os =
      os.map fun o => (o, plain m (effectivePointerSize size) m.allObjects.length o) := by
  have hone : ∀ o ∈ os, ∀ t, Consistent m (effectivePointerSize size) rank t →
      ∃ t', (do
          let l ← ofObject m (effectivePointerSize size) m.allObjects.length o
          return (o, l) : StateM Table (Object × Layout)).run t =
          ((o, plain m (effectivePointerSize size) m.allObjects.length o), t') ∧
        Consistent m (effectivePointerSize size) rank t' := by
    intro o ho t ht
    have hin := hos o ho
    obtain ⟨t', hrun, ht'⟩ := ofObject_run hrank hkeys hin (hbound o hin) ht
    rw [plain_eq_of_rank_lt hrank hin (Nat.lt_succ_self _) (hbound o hin)] at hrun
    exact ⟨t', run_bind_of_run_eq hrun, ht'⟩
  have hempty : Consistent m (effectivePointerSize size) rank [] := by
    intro o _ l hl
    cases hl
  obtain ⟨t', hrun, _⟩ := mapM_run hone hempty
  exact congrArg Prod.fst hrun

end Ranked

end RecordSchema.Layout
