import RecordSchema.Proofs.Model.Reference

/-!
# What a model lists

The lists of a model hold what the definitions of one kind resolve to, in the order of the
definitions: those of all documents, and apart from them those of the root document.
-/

namespace RecordSchema

namespace Definition

theorem resolve?_eq_enum_iff {n : Namespace} {d : Definition} {e : Enumeration} :
    d.resolve? n = .ok (some (.enum e)) ↔ d.keyword = .enum ∧ Enumeration.resolve d = .ok e := by
  unfold resolve?
  cases d.keyword <;> simp [map_eq_ok_iff]

theorem resolve?_eq_database_iff {n : Namespace} {d : Definition} {b : Database} :
    d.resolve? n = .ok (some (.database b)) ↔
      d.keyword = .database ∧ Database.resolve n d = .ok b := by
  unfold resolve?
  cases d.keyword <;> simp [map_eq_ok_iff]

end Definition

theorem Enumeration.resolve_eq_ok {d : Definition} {e : Enumeration}
    (h : Enumeration.resolve d = .ok e) : e.key = d.key ∧ e.name = d.name := by
  obtain ⟨values, _, h⟩ := bind_eq_ok_iff.mp h
  cases h
  exact ⟨rfl, rfl⟩

theorem Bitmask.name_of_resolve {d : Definition} {b : Bitmask} (h : Bitmask.resolve d = .ok b) :
    b.name = d.name := by
  obtain ⟨values, _, h⟩ := bind_eq_ok_iff.mp h
  obtain ⟨highest, _, h⟩ := bind_eq_ok_iff.mp h
  cases h
  rfl

theorem Object.name_of_resolve {n : Namespace} {d : Definition} {o : Object}
    (h : Object.resolve n d = .ok o) : o.name = d.name := by
  obtain ⟨_, _, fields, _, _, _, rfl⟩ := resolve_eq_ok_iff.mp h
  rfl

theorem Database.name_of_resolve {n : Namespace} {d : Definition} {b : Database}
    (h : Database.resolve n d = .ok b) : b.name = d.name := by
  unfold Database.resolve at h
  split at h
  · cases h
  · obtain ⟨entries, _, h⟩ := bind_eq_ok_iff.mp h
    cases h
    rfl

namespace Model

/-- The enum that a step of the resolution adds. -/
def enumOf? (s : Namespace × Definition) : Option Enumeration :=
  (Program.outcome? s).bind fun r => r.2.enum?

/-- The database that a step of the resolution adds. -/
def databaseOf? (s : Namespace × Definition) : Option Database :=
  (Program.outcome? s).bind fun r => r.2.database?

theorem enumOf?_eq_some_iff {s : Namespace × Definition} {e : Enumeration} :
    enumOf? s = some e ↔ s.2.keyword = .enum ∧ Enumeration.resolve s.2 = .ok e := by
  rw [← Definition.resolve?_eq_enum_iff (n := s.1)]
  unfold enumOf? Program.outcome?
  rcases s.2.resolve? s.1 with e | _ | r
  · simp
  · simp
  · cases r <;> simp [Resolved.enum?]

theorem key_of_enumOf? {s : Namespace × Definition} {e : Enumeration} (h : enumOf? s = some e) :
    s.2.keyword = .enum ∧ e.key = s.2.key :=
  (enumOf?_eq_some_iff.mp h).imp_right fun he => (Enumeration.resolve_eq_ok he).1

theorem databaseOf?_eq_some_iff {s : Namespace × Definition} {b : Database} :
    databaseOf? s = some b ↔ s.2.keyword = .database ∧ Database.resolve s.1 s.2 = .ok b := by
  rw [← Definition.resolve?_eq_database_iff]
  unfold databaseOf? Program.outcome?
  rcases s.2.resolve? s.1 with e | _ | r
  · simp
  · simp
  · cases r <;> simp [Resolved.database?]

variable {source : Source} {p : Program} {m : Model}

theorem allEnums_eq (h : resolve p = .ok m) : m.allEnums = p.steps.filterMap enumOf? := by
  obtain ⟨_, _, rfl⟩ := resolve_eq_ok_iff.mp h
  simp only [ofResolved, List.filterMap_map, List.filterMap_filterMap]
  rfl

/-- What the enum definitions of the documents resolve to is found by key. -/
theorem enum?_of_step (hloaded : Loaded source p.namespaces) (h : resolve p = .ok m)
    {n : Namespace} {d : Definition} (hs : (n, d) ∈ p.steps) (hk : d.keyword = .enum) :
    ∃ e, m.enum? d.key = some e ∧ Enumeration.resolve d = .ok e := by
  obtain ⟨r, hr⟩ := (resolve_eq_ok_iff.mp h).2.1 (n, d) hs
  simp only [Definition.resolve?, hk] at hr
  obtain ⟨e, he, _⟩ := map_eq_ok_iff.mp hr
  have hmem : e ∈ m.allEnums := by
    rw [allEnums_eq h]
    exact List.mem_filterMap.mpr ⟨(n, d), hs, enumOf?_eq_some_iff.mpr ⟨hk, he⟩⟩
  have hkeys : (m.allEnums.map Enumeration.key).Nodup := by
    rw [allEnums_eq h]
    exact nodup_map_filterMap_steps hloaded.isLocated (nodup_name_of_resolve h) .enum
      fun _ _ => key_of_enumOf?
  refine ⟨e, ?_, he⟩
  rw [← (Enumeration.resolve_eq_ok he).1]
  exact find?_key_eq_some hkeys hmem

end Model

/-- The steps of the root document are those of the program at its path. -/
theorem Program.filter_steps {p : Program} (hp : p.IsLocated) (hroot : p.root ∈ p.namespaces) :
    (p.steps.filter fun s => s.1.path == p.root.path) = p.root.steps := by
  have hfst : ∀ n : Namespace, ∀ s ∈ n.steps, s.1 = n := by
    intro n s hs
    obtain ⟨k, _, hs⟩ := List.mem_flatMap.mp hs
    obtain ⟨d, _, rfl⟩ := List.mem_map.mp hs
    rfl
  have hown : (p.root.steps.filter fun s => s.1.path == p.root.path) = p.root.steps := by
    rw [List.filter_eq_self]
    intro s hs
    rw [hfst p.root s hs]
    exact beq_self_eq_true _
  have hother : ∀ ns : List Namespace, p.root.path ∉ ns.map Namespace.path →
      ((ns.flatMap Namespace.steps).filter fun s => s.1.path == p.root.path) = [] := by
    intro ns hns
    rw [List.filter_eq_nil_iff]
    intro s hs hpath
    obtain ⟨n, hn, hs⟩ := List.mem_flatMap.mp hs
    rw [hfst n s hs] at hpath
    exact hns (List.mem_map.mpr ⟨n, hn, beq_iff_eq.mp hpath⟩)
  obtain ⟨before, after, hsplit⟩ := List.append_of_mem hroot
  have hnodup := hp.nodup_path
  rw [hsplit, List.map_append, List.map_cons] at hnodup
  obtain ⟨_, hafter, hdisjoint⟩ := List.nodup_append.mp hnodup
  have hbefore : p.root.path ∉ before.map Namespace.path :=
    fun hmem => hdisjoint _ hmem _ List.mem_cons_self rfl
  rw [Program.steps, hsplit, List.flatMap_append, List.flatMap_cons, List.filter_append,
    List.filter_append, hother before hbefore, hown,
    hother after (List.nodup_cons.mp hafter).1, List.nil_append, List.append_nil]

namespace Model

variable {p : Program} {m : Model} (hp : p.IsLocated) (hroot : p.root ∈ p.namespaces)

include hp hroot

/-- The lists of a model that are about its root document are made from the steps of that
document. -/
theorem filterMap_own {β : Type} (g : Resolved → Option β) :
    (((p.steps.filterMap Program.outcome?).filter fun r => r.1.path == p.root.path).map
      Prod.snd).filterMap g =
        p.root.steps.filterMap fun s => (Program.outcome? s).bind fun r => g r.2 := by
  rw [List.filterMap_map, List.filter_filterMap, List.filterMap_filterMap,
    ← Program.filter_steps hp hroot, List.filterMap_filter]
  refine List.filterMap_congr fun s _ => ?_
  cases hout : Program.outcome? s with
  | none => simp
  | some r =>
      obtain ⟨n, r⟩ := r
      rw [← (Program.outcome?_eq_some_iff.mp hout).1]
      by_cases hpath : s.1.path = p.root.path
      · simp [Option.filter, hpath]
      · simp [Option.filter, hpath]

theorem enums_eq (h : resolve p = .ok m) : m.enums = p.root.steps.filterMap enumOf? := by
  obtain ⟨_, _, rfl⟩ := resolve_eq_ok_iff.mp h
  exact filterMap_own hp hroot Resolved.enum?

theorem bitmasks_eq (h : resolve p = .ok m) : m.bitmasks = p.root.steps.filterMap bitmaskOf? := by
  obtain ⟨_, _, rfl⟩ := resolve_eq_ok_iff.mp h
  exact filterMap_own hp hroot Resolved.bitmask?

theorem objects_eq (h : resolve p = .ok m) : m.objects = p.root.steps.filterMap objectOf? := by
  obtain ⟨_, _, rfl⟩ := resolve_eq_ok_iff.mp h
  exact filterMap_own hp hroot Resolved.object?

theorem databases_eq (h : resolve p = .ok m) :
    m.databases = p.root.steps.filterMap databaseOf? := by
  obtain ⟨_, _, rfl⟩ := resolve_eq_ok_iff.mp h
  exact filterMap_own hp hroot Resolved.database?

end Model

end RecordSchema
