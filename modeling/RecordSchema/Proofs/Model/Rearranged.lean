import RecordSchema.Proofs.Model.Listing
import RecordSchema.Proofs.Program.Rearranged

/-!
# Models of rearranged documents

Definitions are resolved by what a namespace finds, whatever the order in which it holds it.
Programs that find the same therefore resolve together, and their models list the same in other
orders.
-/

namespace RecordSchema

open Namespace

section Congruence

variable {n n' : Namespace} (h : n'.lookup? = n.lookup?)

include h

theorem Namespace.classOf_congr : n'.classOf = n.classOf := by
  unfold classOf
  rw [h]

theorem Namespace.positive_congr : n'.positive = n.positive := by
  unfold positive countText?
  rw [h]

namespace TypeReference

theorem plain_congr : plain n' = plain n := by
  unfold plain definition?
  rw [h]

theorem resolve_congr : resolve n' = resolve n := by
  unfold resolve
  rw [plain_congr h, positive_congr h]

end TypeReference

namespace Declared

theorem readBody_congr : readBody n' = readBody n := by
  unfold readBody
  rw [classOf_congr h]

theorem readFields_congr : readFields n' = readFields n := by
  have hfield : readField n' = readField n := by
    unfold readField
    rw [readBody_congr h]
  funext entity seen pairs
  induction pairs generalizing seen with
  | nil => rfl
  | cons pair rest ih =>
      rw [readFields, readFields, hfield]
      simp only [ih]

theorem resolve_congr : resolve n' = resolve n := by
  unfold resolve length
  rw [TypeReference.resolve_congr h, positive_congr h]

end Declared

theorem Object.resolve_congr : Object.resolve n' = Object.resolve n := by
  have hfields : resolveFields n' = resolveFields n := by
    funext d ps
    induction ps with
    | nil => rfl
    | cons x rest ih =>
        rw [resolveFields, resolveFields, Declared.resolve_congr h]
        simp only [ih]
  unfold Object.resolve
  rw [Declared.readFields_congr h, hfields]

theorem DatabaseEntry.resolve_congr : DatabaseEntry.resolve n' = DatabaseEntry.resolve n := by
  have hback : back n' = back n := by
    unfold back
    rw [h, positive_congr h]
  unfold DatabaseEntry.resolve
  rw [Declared.readBody_congr h, hback]

theorem Database.resolve_congr : Database.resolve n' = Database.resolve n := by
  have hentries : resolveEntries n' = resolveEntries n := by
    funext owner seen pairs
    induction pairs generalizing seen with
    | nil => rfl
    | cons pair rest ih =>
        rw [resolveEntries, resolveEntries, DatabaseEntry.resolve_congr h]
        simp only [ih]
  unfold Database.resolve
  rw [hentries]

/-- A definition resolves by what its namespace finds. -/
theorem Definition.resolve?_congr (d : Definition) : d.resolve? n' = d.resolve? n := by
  unfold resolve?
  rw [Object.resolve_congr h, Database.resolve_congr h]

end Congruence

namespace Namespace

variable {n n' : Namespace}

theorem Alike.resolve?_eq (h : n.Alike n') (d : Definition) : d.resolve? n' = d.resolve? n :=
  Definition.resolve?_congr (funext fun k => funext fun name => h.lookup?_eq k name) d

theorem Alike.ofKind_perm (h : n.Alike n') (k : Keyword) :
    (n'.own.ofKind k).Perm (n.own.ofKind k) :=
  h.own_perm.filter _

theorem steps_eq (n : Namespace) :
    n.steps = (resolvedKinds.flatMap n.own.ofKind).map fun d => (n, d) := by
  rw [steps, List.map_flatMap]

/-- The definitions of alike documents have the same results. -/
theorem Alike.results_perm (h : n.Alike n') :
    (n'.steps.map fun s => s.2.resolve? s.1).Perm (n.steps.map fun s => s.2.resolve? s.1) := by
  rw [steps_eq, steps_eq, List.map_map, List.map_map]
  simp only [Function.comp_def, h.resolve?_eq]
  exact (List.Perm.flatMap_left _ fun k _ => h.ofKind_perm k).map _

theorem Alike.constants_perm (h : n.Alike n') : n'.constants.Perm n.constants :=
  (h.ofKind_perm .constant).map _

/-- What steps give for one kind only is given by the definitions of that kind. -/
theorem filterMap_steps {β : Type} {g : Namespace × Definition → Option β} {k : Keyword}
    (hk : k ∈ resolvedKinds) (hnone : ∀ d, d.keyword ≠ k → g (n, d) = none) :
    n.steps.filterMap g = (n.own.ofKind k).filterMap fun d => g (n, d) := by
  have hother : ∀ k' ≠ k, (n.own.ofKind k').filterMap (fun d => g (n, d)) = [] := by
    intro k' hne
    rw [List.filterMap_eq_nil_iff]
    intro d hd
    apply hnone
    rw [beq_iff_eq.mp (List.mem_filter.mp hd).2]
    exact hne
  rw [steps_eq, List.filterMap_map, List.filterMap_flatMap]
  simp only [resolvedKinds, List.mem_cons, List.not_mem_nil, or_false] at hk
  rcases hk with rfl | rfl | rfl | rfl <;> simp [resolvedKinds, hother]

/-- The results of the definitions of a kind have their names, in document order. -/
theorem map_filterMap_steps {β : Type} {g : Namespace × Definition → Option β} {name : β → Text}
    {k : Keyword} (hk : k ∈ resolvedKinds)
    (hsome : ∀ d ∈ n.own.ofKind k, ∃ b, g (n, d) = some b ∧ name b = d.name)
    (hnone : ∀ d, d.keyword ≠ k → g (n, d) = none) :
    (n.steps.filterMap g).map name = n.own.names k := by
  rw [filterMap_steps hk hnone, Scope.names]
  generalize n.own.ofKind k = ds at hsome ⊢
  induction ds with
  | nil => rfl
  | cons d rest ih =>
      obtain ⟨⟨b, hb, hname⟩, hrest⟩ := List.forall_mem_cons.mp hsome
      rw [List.filterMap_cons, hb, List.map_cons, List.map_cons, hname, ih hrest]

end Namespace

namespace Program

variable {p p' : Program}

theorem Alike.name_eq (h : p.Alike p') :
    p'.namespaces.map Namespace.name = p.namespaces.map Namespace.name := by
  have hns := h.namespaces
  generalize p.namespaces = ns, p'.namespaces = ns' at hns ⊢
  induction hns with
  | nil => rfl
  | cons hn _ ih => rw [List.map_cons, List.map_cons, hn.name_eq, ih]

theorem Alike.results_perm (h : p.Alike p') :
    (p'.steps.map fun s => s.2.resolve? s.1).Perm (p.steps.map fun s => s.2.resolve? s.1) := by
  unfold steps
  have hns := h.namespaces
  generalize p.namespaces = ns, p'.namespaces = ns' at hns ⊢
  induction hns with
  | nil => exact .nil
  | cons hn _ ih =>
      rw [List.flatMap_cons, List.flatMap_cons, List.map_append, List.map_append]
      exact hn.results_perm.append ih

/-- What steps add to a model is made from their results. -/
theorem filterMap_outcome? (steps : List (Namespace × Definition)) {β : Type}
    (g : Resolved → Option β) :
    (steps.filterMap fun s => (outcome? s).bind fun r => g r.2) =
      (steps.map fun s => s.2.resolve? s.1).filterMap fun x => x.toOption.join.bind g := by
  rw [List.filterMap_map]
  refine List.filterMap_congr fun s _ => ?_
  rw [outcome?, Function.comp_apply]
  rcases s.2.resolve? s.1 with e | _ | r
  · rfl
  · rfl
  · rfl

end Program

namespace Model

/-- Whether two models list the same, the lists in any order. -/
structure Alike (m m' : Model) : Prop where
  schema_eq : m'.schema = m.schema
  imports_eq : m'.imports = m.imports
  constants_perm : m'.constants.Perm m.constants
  enums_perm : m'.enums.Perm m.enums
  bitmasks_perm : m'.bitmasks.Perm m.bitmasks
  objects_perm : m'.objects.Perm m.objects
  databases_perm : m'.databases.Perm m.databases
  allEnums_perm : m'.allEnums.Perm m.allEnums
  allBitmasks_perm : m'.allBitmasks.Perm m.allBitmasks
  allObjects_perm : m'.allObjects.Perm m.allObjects

variable {documents documents' : Documents} {root : Text} {p p' : Program} {m m' : Model}

theorem schema_eq (h : resolve p = .ok m) : m.schema = p.root.name := by
  obtain ⟨_, _, rfl⟩ := resolve_eq_ok_iff.mp h
  rfl

theorem imports_eq (h : resolve p = .ok m) : m.imports = p.root.imports := by
  obtain ⟨_, _, rfl⟩ := resolve_eq_ok_iff.mp h
  rfl

theorem constants_eq (h : resolve p = .ok m) : m.constants = p.root.constants := by
  obtain ⟨_, _, rfl⟩ := resolve_eq_ok_iff.mp h
  rfl

theorem exists_resolve_of_alike (h : p.Alike p') (hm : resolve p = .ok m) :
    ∃ m', resolve p' = .ok m' := by
  obtain ⟨hnames, hall, _⟩ := resolve_eq_ok_iff.mp hm
  refine ⟨_, resolve_eq_ok_iff.mpr ⟨?_, ?_, rfl⟩⟩
  · rw [Program.checkNames_eq_ok_iff] at hnames ⊢
    exact ⟨h.name_eq ▸ hnames.1, by simp⟩
  · intro s hs
    obtain ⟨t, ht, heq⟩ := List.mem_map.mp (h.results_perm.mem_iff.mp (List.mem_map_of_mem hs))
    rw [← heq]
    exact hall t ht

/-- Programs that find the same have models that list the same. -/
theorem alike_of_resolve (h : p.Alike p') (hp : p.LoadedIn documents root)
    (hp' : p'.LoadedIn documents' root) (hm : resolve p = .ok m) (hm' : resolve p' = .ok m') :
    m.Alike m' := by
  have hall : ∀ {β : Type} (g : Resolved → Option β),
      (p'.steps.filterMap fun s => (Program.outcome? s).bind fun r => g r.2).Perm
        (p.steps.filterMap fun s => (Program.outcome? s).bind fun r => g r.2) := by
    intro β g
    rw [Program.filterMap_outcome?, Program.filterMap_outcome?]
    exact h.results_perm.filterMap _
  have hown : ∀ {β : Type} (g : Resolved → Option β),
      (p'.root.steps.filterMap fun s => (Program.outcome? s).bind fun r => g r.2).Perm
        (p.root.steps.filterMap fun s => (Program.outcome? s).bind fun r => g r.2) := by
    intro β g
    rw [Program.filterMap_outcome?, Program.filterMap_outcome?]
    exact h.root.results_perm.filterMap _
  have hl := hp.isLocated
  have hl' := hp'.isLocated
  constructor
  · rw [schema_eq hm, schema_eq hm', h.root.name_eq]
  · rw [imports_eq hm, imports_eq hm', h.root.imports_eq]
  · rw [constants_eq hm, constants_eq hm']
    exact h.root.constants_perm
  · rw [enums_eq hl hp.root_mem hm, enums_eq hl' hp'.root_mem hm']
    exact hown Resolved.enum?
  · rw [bitmasks_eq hl hp.root_mem hm, bitmasks_eq hl' hp'.root_mem hm']
    exact hown Resolved.bitmask?
  · rw [objects_eq hl hp.root_mem hm, objects_eq hl' hp'.root_mem hm']
    exact hown Resolved.object?
  · rw [databases_eq hl hp.root_mem hm, databases_eq hl' hp'.root_mem hm']
    exact hown Resolved.database?
  · rw [allEnums_eq hm, allEnums_eq hm']
    exact hall Resolved.enum?
  · rw [allBitmasks_eq hm, allBitmasks_eq hm']
    exact hall Resolved.bitmask?
  · rw [allObjects_eq hm, allObjects_eq hm']
    exact hall Resolved.object?

section Names

variable (hp : p.LoadedIn documents root) (h : resolve p = .ok m)

include hp h

theorem exists_resolve?_of_ofKind {k : Keyword} (hk : k ∈ resolvedKinds) {d : Definition}
    (hd : d ∈ p.root.own.ofKind k) : d.keyword = k ∧ ∃ r, d.resolve? p.root = .ok r := by
  obtain ⟨hd, hkind⟩ := List.mem_filter.mp hd
  have hkind := beq_iff_eq.mp hkind
  refine ⟨hkind, (resolve_eq_ok_iff.mp h).2.1 (p.root, d) ?_⟩
  exact Program.mem_steps.mpr ⟨hp.root_mem, hd, hkind ▸ hk⟩

theorem name_enums : m.enums.map Enumeration.name = p.root.own.names .enum := by
  rw [enums_eq hp.isLocated hp.root_mem h]
  apply map_filterMap_steps (by decide)
  · intro d hd
    obtain ⟨hk, r, hr⟩ := exists_resolve?_of_ofKind hp h (by decide) hd
    simp only [Definition.resolve?, hk] at hr
    obtain ⟨e, he, _⟩ := map_eq_ok_iff.mp hr
    exact ⟨e, enumOf?_eq_some_iff.mpr ⟨hk, he⟩, (Enumeration.resolve_eq_ok he).2⟩
  · intro d hk
    exact Option.eq_none_iff_forall_ne_some.mpr fun e he => hk (enumOf?_eq_some_iff.mp he).1

theorem name_bitmasks : m.bitmasks.map Bitmask.name = p.root.own.names .bitmask := by
  rw [bitmasks_eq hp.isLocated hp.root_mem h]
  apply map_filterMap_steps (by decide)
  · intro d hd
    obtain ⟨hk, r, hr⟩ := exists_resolve?_of_ofKind hp h (by decide) hd
    simp only [Definition.resolve?, hk] at hr
    obtain ⟨b, hb, _⟩ := map_eq_ok_iff.mp hr
    exact ⟨b, bitmaskOf?_eq_some_iff.mpr ⟨hk, hb⟩, Bitmask.name_of_resolve hb⟩
  · intro d hk
    exact Option.eq_none_iff_forall_ne_some.mpr fun b hb => hk (bitmaskOf?_eq_some_iff.mp hb).1

theorem name_objects : m.objects.map Object.name = p.root.own.names .object := by
  rw [objects_eq hp.isLocated hp.root_mem h]
  apply map_filterMap_steps (by decide)
  · intro d hd
    obtain ⟨hk, r, hr⟩ := exists_resolve?_of_ofKind hp h (by decide) hd
    simp only [Definition.resolve?, hk] at hr
    obtain ⟨o, ho, _⟩ := map_eq_ok_iff.mp hr
    exact ⟨o, objectOf?_eq_some_iff.mpr ⟨hk, ho⟩, Object.name_of_resolve ho⟩
  · intro d hk
    exact Option.eq_none_iff_forall_ne_some.mpr fun o ho => hk (objectOf?_eq_some_iff.mp ho).1

theorem name_databases : m.databases.map Database.name = p.root.own.names .database := by
  rw [databases_eq hp.isLocated hp.root_mem h]
  apply map_filterMap_steps (by decide)
  · intro d hd
    obtain ⟨hk, r, hr⟩ := exists_resolve?_of_ofKind hp h (by decide) hd
    simp only [Definition.resolve?, hk] at hr
    obtain ⟨b, hb, _⟩ := map_eq_ok_iff.mp hr
    exact ⟨b, databaseOf?_eq_some_iff.mpr ⟨hk, hb⟩, Database.name_of_resolve hb⟩
  · intro d hk
    exact Option.eq_none_iff_forall_ne_some.mpr fun b hb => hk (databaseOf?_eq_some_iff.mp hb).1

end Names

end Model

end RecordSchema
