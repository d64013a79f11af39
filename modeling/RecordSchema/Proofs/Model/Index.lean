import RecordSchema.Proofs.Model.Entry
import RecordSchema.Proofs.Model.Rearranged
import RecordSchema.Store.Library

/-!
# The definitions of a model

A model has one entry for each declaration in a loaded document, and it is found under the schema
name and the name of the declaration. Schema names may have dots and names are only unique in a
document, but no two documents have the same schema name and no name has a dot.
-/

namespace RecordSchema

open Text Namespace

/-- The entries of a document that define something of a kind, in document order. -/
def Document.ofKind (d : Document) (k : Keyword) : List Entry :=
  d.definitions.filter fun e => e.key.keyword = k

/-- What the documents at some paths declare of a kind, each declaration with the path. -/
def Source.declarations (source : Source) (k : Keyword) (paths : List Text) : List (Text × Entry) :=
  paths.flatMap fun path =>
    match source.documents path with
    | .ok d => (d.ofKind k).map fun e => (path, e)
    | .error _ => []

/-- The key of a declaration in the document at a path. -/
def Source.keyOf (declaration : Text × Entry) : Text :=
  qualified (schemaName declaration.1) declaration.2.key.name

namespace Resolved

/-- The kind of the definition. -/
def keyword : Resolved → Keyword
  | enum _ => .enum
  | bitmask _ => .bitmask
  | object _ => .object
  | database _ => .database

def name : Resolved → Text
  | enum e => e.name
  | bitmask b => b.name
  | object o => o.name
  | database d => d.name

def origin : Resolved → Text
  | enum e => e.origin
  | bitmask b => b.origin
  | object o => o.origin
  | database d => d.origin

def document : Resolved → Text
  | enum e => e.document
  | bitmask b => b.document
  | object o => o.document
  | database d => d.document

def key (r : Resolved) : Text := qualified r.origin r.name

end Resolved

/-- Whether a definition is what an entry of the document at a path resolves to. -/
structure Program.Resolves (p : Program) (declaration : Text × Entry) (r : Resolved) : Prop where
  name_eq : r.name = declaration.2.key.name
  origin_eq : r.origin = Source.schemaName declaration.1
  document_eq : r.document = declaration.1
  resolve?_eq : ∃ n ∈ p.namespaces, n.path = declaration.1 ∧
    (Load.definition n declaration.2).resolve? n = .ok (some r)

/-- Whether definitions are those that the documents of a program declare of a kind, in the order
of the documents, and each is found by its key. -/
structure Program.Indexes (source : Source) (p : Program) (k : Keyword) (rs : List Resolved)
    (find? : Text → Option Resolved) : Prop where
  forall₂ : List.Forall₂ p.Resolves (source.declarations k (p.namespaces.map Namespace.path)) rs
  nodup_key : ((source.declarations k (p.namespaces.map Namespace.path)).map Source.keyOf).Nodup
  find?_eq_some_iff : ∀ key r, find? key = some r ↔
    ∃ x ∈ source.declarations k (p.namespaces.map Namespace.path), Source.keyOf x = key ∧
      p.Resolves x r

section Declarations

variable {source : Source} {k : Keyword}

theorem Source.declarations_cons {path : Text} {paths : List Text} {d : Document}
    (h : source.documents path = .ok d) :
    source.declarations k (path :: paths) =
      (d.ofKind k).map (fun e => (path, e)) ++ source.declarations k paths := by
  rw [declarations, List.flatMap_cons, h]
  rfl

theorem Namespace.IsOf.exists_ofKind {n : Namespace} (h : n.IsOf source.documents) (k : Keyword) :
    ∃ d, source.documents n.path = .ok d ∧
      n.own.ofKind k = (d.ofKind k).map (Load.definition n) := by
  obtain ⟨d, hd, hown⟩ := h.own_eq
  refine ⟨d, hd, ?_⟩
  have hblank : Load.definition (blank n.path) = Load.definition n :=
    Load.definition_congr rfl h.name_eq.symm
  rw [hown, scopeOf, hblank, Scope.ofKind, List.filter_map]
  congr 1

theorem Definition.resolve?_eq_some {n : Namespace} {d : Definition} {r : Resolved}
    (h : d.resolve? n = .ok (some r)) :
    r.keyword = d.keyword ∧ r.name = d.name ∧ r.origin = d.origin ∧ r.document = d.document := by
  cases r with
  | enum e =>
      obtain ⟨hk, he⟩ := resolve?_eq_enum_iff.mp h
      obtain ⟨values, _, he⟩ := bind_eq_ok_iff.mp he
      cases he
      exact ⟨hk.symm, rfl, rfl, rfl⟩
  | bitmask b =>
      obtain ⟨hk, hb⟩ := resolve?_eq_bitmask_iff.mp h
      obtain ⟨values, _, hb⟩ := bind_eq_ok_iff.mp hb
      obtain ⟨highest, _, hb⟩ := bind_eq_ok_iff.mp hb
      cases hb
      exact ⟨hk.symm, rfl, rfl, rfl⟩
  | object o =>
      obtain ⟨hk, ho⟩ := resolve?_eq_object_iff.mp h
      obtain ⟨_, _, fields, _, _, _, rfl⟩ := Object.resolve_eq_ok_iff.mp ho
      exact ⟨hk.symm, rfl, rfl, rfl⟩
  | database b =>
      obtain ⟨hk, hb⟩ := resolve?_eq_database_iff.mp h
      unfold Database.resolve at hb
      split at hb
      · cases hb
      · obtain ⟨entries, _, hb⟩ := bind_eq_ok_iff.mp hb
        cases hb
        exact ⟨hk.symm, rfl, rfl, rfl⟩

theorem Definition.exists_resolve?_eq_some {n : Namespace} {d : Definition} {x : Option Resolved}
    (hk : d.keyword ∈ resolvedKinds) (h : d.resolve? n = .ok x) : ∃ r, x = some r := by
  simp only [resolvedKinds, List.mem_cons, List.not_mem_nil, or_false] at hk
  unfold resolve? at h
  rcases hk with hk | hk | hk | hk
  all_goals
    rw [hk] at h
    obtain ⟨r, _, rfl⟩ := map_eq_ok_iff.mp h
    exact ⟨_, rfl⟩

end Declarations

namespace Program

variable {source : Source} {root : Text} {p : Program} {k : Keyword}

section Resolves

variable {x : Text × Entry} {r : Resolved}

theorem Resolves.key_eq (h : p.Resolves x r) : r.key = Source.keyOf x := by
  rw [Resolved.key, Source.keyOf, h.name_eq, h.origin_eq]

theorem Resolves.unique (hp : p.IsLocated) {r' : Resolved} (h : p.Resolves x r)
    (h' : p.Resolves x r') : r = r' := by
  obtain ⟨n, hn, hpath, hr⟩ := h.resolve?_eq
  obtain ⟨n', hn', hpath', hr'⟩ := h'.resolve?_eq
  cases List.inj_on_of_nodup_map hp.nodup_path hn hn' (hpath.trans hpath'.symm)
  exact Option.some.inj (Except.ok.inj (hr.symm.trans hr'))

theorem resolves_definition (hp : p.LoadedIn source.documents root) {n : Namespace}
    (hn : n ∈ p.namespaces) {e : Entry}
    (h : (Load.definition n e).resolve? n = .ok (some r)) : p.Resolves (n.path, e) r := by
  obtain ⟨_, hname, horigin, hdocument⟩ := Definition.resolve?_eq_some h
  exact ⟨hname, horigin.trans (hp.isOf n hn).name_eq, hdocument, n, hn, rfl, h⟩

end Resolves

/-- What a step of the resolution gives if it is about a kind. -/
def resultOf? (k : Keyword) (s : Namespace × Definition) : Option Resolved :=
  if s.2.keyword = k then (s.2.resolve? s.1).toOption.join else none

theorem resultOf?_eq_some_iff {s : Namespace × Definition} {r : Resolved} :
    resultOf? k s = some r ↔ s.2.keyword = k ∧ s.2.resolve? s.1 = .ok (some r) := by
  unfold resultOf?
  split
  · next hkind =>
      rcases s.2.resolve? s.1 with e | _ | r'
      · simp [Except.toOption]
      · simp [Except.toOption]
      · simp [Except.toOption, hkind]
  · next hkind => simp [hkind]

section Steps

variable (hp : p.LoadedIn source.documents root)
  (hall : ∀ s ∈ p.steps, ∃ r, s.2.resolve? s.1 = .ok r) (hk : k ∈ resolvedKinds)

include hp hall hk

omit hp in
theorem exists_resultOf? {n : Namespace} (hn : n ∈ p.namespaces) {d : Definition}
    (hd : d ∈ n.own.ofKind k) : ∃ r, resultOf? k (n, d) = some r := by
  obtain ⟨hd, hkind⟩ := List.mem_filter.mp hd
  have hkind : d.keyword = k := beq_iff_eq.mp hkind
  obtain ⟨x, hx⟩ := hall (n, d) (mem_steps.mpr ⟨hn, hd, hkind.symm ▸ hk⟩)
  obtain ⟨r, rfl⟩ := Definition.exists_resolve?_eq_some (hkind.symm ▸ hk) hx
  exact ⟨r, resultOf?_eq_some_iff.mpr ⟨hkind, hx⟩⟩

/-- The declarations of a kind in one document resolve to what its steps give. -/
theorem forall₂_resolves_own {n : Namespace} (hn : n ∈ p.namespaces) {d : Document}
    (hown : n.own.ofKind k = (d.ofKind k).map (Load.definition n)) :
    List.Forall₂ p.Resolves ((d.ofKind k).map fun e => (n.path, e))
      (n.steps.filterMap (resultOf? k)) := by
  have hresult : ∀ e ∈ d.ofKind k, ∃ r, resultOf? k (n, Load.definition n e) = some r :=
    fun e he => exists_resultOf? hall hk hn (hown ▸ List.mem_map_of_mem he)
  rw [filterMap_steps hk fun x hne => if_neg hne, hown, List.filterMap_map]
  generalize d.ofKind k = es at hresult
  induction es with
  | nil => exact .nil
  | cons e es ih =>
      obtain ⟨⟨r, hr⟩, hes⟩ := List.forall_mem_cons.mp hresult
      rw [List.map_cons, List.filterMap_cons, Function.comp_apply, hr]
      exact .cons (resolves_definition hp hn (resultOf?_eq_some_iff.mp hr).2) (ih hes)

theorem forall₂_resolves {ns : List Namespace} (hns : ∀ n ∈ ns, n ∈ p.namespaces) :
    List.Forall₂ p.Resolves (source.declarations k (ns.map Namespace.path))
      ((ns.flatMap Namespace.steps).filterMap (resultOf? k)) := by
  induction ns with
  | nil => exact .nil
  | cons n rest ih =>
      obtain ⟨hn, hrest⟩ := List.forall_mem_cons.mp hns
      obtain ⟨d, hd, hown⟩ := (hp.isOf n hn).exists_ofKind k
      rw [List.map_cons, Source.declarations_cons hd, List.flatMap_cons, List.filterMap_append]
      exact List.rel_append (forall₂_resolves_own hp hall hk hn hown) (ih hrest)

/-- What the steps of a program give for a kind is found by key, as no two declarations share
one. -/
theorem indexes_steps (hnames : (p.namespaces.map Namespace.name).Nodup) :
    p.Indexes source k (p.steps.filterMap (resultOf? k)) fun key =>
      (p.steps.filterMap (resultOf? k)).find? fun r => r.key == key := by
  have hforall := forall₂_resolves hp hall hk fun n hn => hn
  have hkeys : ((p.steps.filterMap (resultOf? k)).map Resolved.key).Nodup := by
    refine Model.nodup_map_filterMap_steps hp.isLocated hnames k fun s r hr => ?_
    obtain ⟨hkind, hr⟩ := resultOf?_eq_some_iff.mp hr
    obtain ⟨_, hname, horigin, _⟩ := Definition.resolve?_eq_some hr
    refine ⟨hkind, ?_⟩
    rw [Resolved.key, hname, horigin]
    rfl
  have hmap : (p.steps.filterMap (resultOf? k)).map Resolved.key =
      (source.declarations k (p.namespaces.map Namespace.path)).map Source.keyOf := by
    rw [← List.forall₂_eq_eq_eq, List.forall₂_map_left_iff, List.forall₂_map_right_iff]
    exact (List.Forall₂.flip hforall).imp fun _ _ h => h.key_eq
  refine ⟨hforall, hmap ▸ hkeys, fun key r => ⟨fun hr => ?_, ?_⟩⟩
  · have hkey : r.key = key := by simpa using List.find?_some hr
    obtain ⟨x, hx, hres⟩ :=
      exists_of_forall₂_left (List.Forall₂.flip hforall) r (List.mem_of_find?_eq_some hr)
    exact ⟨x, hx, hres.key_eq.symm.trans hkey, hres⟩
  · rintro ⟨x, hx, rfl, hres⟩
    obtain ⟨r', hr', hres'⟩ := exists_of_forall₂_left hforall x hx
    cases hres.unique hp.isLocated hres'
    rw [← hres.key_eq]
    exact find?_key_eq_some hkeys hr'

end Steps

end Program

namespace Model

variable {source : Source} {root : Text} {p : Program} {m : Model}

section Lists

-- The definitions of a kind are told from the others by `g`, and `wrap` puts them among all kinds.
variable {β : Type} {g : Resolved → Option β} {wrap : β → Resolved} {k : Keyword}
  (hg : ∀ r, (g r).map wrap = if r.keyword = k then some r else none)

include hg

theorem map_filterMap_outcome? (steps : List (Namespace × Definition)) :
    (steps.filterMap fun s => (Program.outcome? s).bind fun r => g r.2).map wrap =
      steps.filterMap (Program.resultOf? k) := by
  rw [List.map_filterMap]
  refine List.filterMap_congr fun s _ => ?_
  rw [Program.outcome?, Program.resultOf?]
  cases hr : s.2.resolve? s.1 with
  | error e => simp [Except.toOption]
  | ok x =>
      cases x with
      | none => simp [Except.toOption]
      | some r =>
          rw [← (Definition.resolve?_eq_some hr).1]
          exact hg r

variable (hk : k ∈ resolvedKinds) (hp : p.LoadedIn source.documents root) (h : resolve p = .ok m)
  {bs : List β}

include hk hp h

theorem indexes_map
    (hbs : bs = p.steps.filterMap fun s => (Program.outcome? s).bind fun r => g r.2) :
    p.Indexes source k (bs.map wrap) fun key =>
      (bs.find? fun b => (wrap b).key == key).map wrap := by
  have hindex := Program.indexes_steps hp (resolve_eq_ok_iff.mp h).2.1 hk (nodup_name_of_resolve h)
  rw [← map_filterMap_outcome? hg, ← hbs] at hindex
  simp only [List.find?_map] at hindex
  exact hindex

theorem forall₂_resolves_map
    (hbs : bs = p.root.steps.filterMap fun s => (Program.outcome? s).bind fun r => g r.2) :
    List.Forall₂ p.Resolves (source.declarations k [root]) (bs.map wrap) := by
  have hroot := Program.forall₂_resolves hp (resolve_eq_ok_iff.mp h).2.1 hk
    (List.forall_mem_singleton.mpr hp.root_mem)
  rw [List.map_singleton, hp.root_path, List.flatMap_singleton] at hroot
  rwa [hbs, map_filterMap_outcome? hg]

end Lists

theorem constants_eq_declarations (hp : p.LoadedIn source.documents root) (h : resolve p = .ok m) :
    m.constants = (source.declarations .constant [root]).map fun x =>
      ⟨x.2.key.name, Source.schemaName x.1, x.2.body.node.value⟩ := by
  have hof := hp.isOf p.root hp.root_mem
  obtain ⟨d, hd, hown⟩ := hof.exists_ofKind .constant
  rw [hp.root_path] at hd
  rw [constants_eq h, Namespace.constants, hown, Source.declarations_cons hd, List.map_append,
    List.map_map, List.map_map]
  simp only [Function.comp_def, Load.definition, hof.name_eq, hp.root_path]
  exact (List.append_nil _).symm

/-- A model has one entry for each enum, bitmask and object that a loaded document declares, found
under its schema name and name, and it lists what the root document declares in declaration
order. -/
theorem indexes_of_resolve (hload : (Program.load source root).1 = .ok p) (h : resolve p = .ok m) :
    p.Indexes source .enum (m.allEnums.map .enum) (fun key => (m.enum? key).map .enum) ∧
      p.Indexes source .bitmask (m.allBitmasks.map .bitmask)
        (fun key => (m.bitmask? key).map .bitmask) ∧
      p.Indexes source .object (m.allObjects.map .object) (fun key => (m.object? key).map .object) ∧
      List.Forall₂ p.Resolves (source.declarations .enum [root]) (m.enums.map .enum) ∧
      List.Forall₂ p.Resolves (source.declarations .bitmask [root]) (m.bitmasks.map .bitmask) ∧
      List.Forall₂ p.Resolves (source.declarations .object [root]) (m.objects.map .object) ∧
      List.Forall₂ p.Resolves (source.declarations .database [root]) (m.databases.map .database) ∧
      m.constants = (source.declarations .constant [root]).map fun x =>
        ⟨x.2.key.name, Source.schemaName x.1, x.2.body.node.value⟩ := by
  have hp := Program.loadedIn_of_load hload
  have henum (r : Resolved) :
      r.enum?.map .enum = if r.keyword = .enum then some r else none := by
    cases r <;> rfl
  have hbitmask (r : Resolved) :
      r.bitmask?.map .bitmask = if r.keyword = .bitmask then some r else none := by
    cases r <;> rfl
  have hobject (r : Resolved) :
      r.object?.map .object = if r.keyword = .object then some r else none := by
    cases r <;> rfl
  have hdatabase (r : Resolved) :
      r.database?.map .database = if r.keyword = .database then some r else none := by
    cases r <;> rfl
  refine ⟨?_, ?_, ?_, ?_, ?_, ?_, ?_, constants_eq_declarations hp h⟩
  · exact indexes_map henum (by decide) hp h (allEnums_eq h)
  · exact indexes_map hbitmask (by decide) hp h (allBitmasks_eq h)
  · exact indexes_map hobject (by decide) hp h (allObjects_eq h)
  · exact forall₂_resolves_map henum (by decide) hp h (enums_eq hp.isLocated hp.root_mem h)
  · exact forall₂_resolves_map hbitmask (by decide) hp h (bitmasks_eq hp.isLocated hp.root_mem h)
  · exact forall₂_resolves_map hobject (by decide) hp h (objects_eq hp.isLocated hp.root_mem h)
  · exact forall₂_resolves_map hdatabase (by decide) hp h (databases_eq hp.isLocated hp.root_mem h)

/-- Two documents in different directories declare the same names. The schema name of one of them is
that of the other with a dot and more. -/
def dottedDocuments : Library :=
  .ofList [("m.yaml",
      "Import: [x/a.yaml, y/a.b.yaml]\nConstant C: 3\nEnum E:\n X: 1\nEnum D:\n Y: 1\n"),
    ("x/a.yaml", "Enum E:\n X: 1\nObject O:\n f: E\n"),
    ("y/a.b.yaml", "Enum E:\n Y: 2\nObject O:\n f: E\n")]

theorem indexes_of_resolve_dotted :
    ∃ p m, (Program.load dottedDocuments.source "m.yaml").1 = .ok p ∧ resolve p = .ok m ∧
      m.allEnums.map Enumeration.key = (["a.E", "a.b.E", "m.E", "m.D"] : List Text) ∧
      p.Indexes dottedDocuments.source .enum (m.allEnums.map .enum)
        (fun key => (m.enum? key).map .enum) ∧
      p.Indexes dottedDocuments.source .object (m.allObjects.map .object)
        (fun key => (m.object? key).map .object) ∧
      List.Forall₂ p.Resolves (dottedDocuments.source.declarations .enum ["m.yaml"])
        (m.enums.map .enum) := by
  have hok : (do
      let p ← (Program.load dottedDocuments.source "m.yaml").1.toOption
      let m ← (resolve p).toOption
      return m.allEnums.map Enumeration.key) =
        some (["a.E", "a.b.E", "m.E", "m.D"] : List Text) := by decide +kernel
  obtain ⟨p, hp, hok⟩ := Option.bind_eq_some_iff.mp hok
  obtain ⟨m, hm, hok⟩ := Option.bind_eq_some_iff.mp hok
  have hload := eq_ok_of_toOption_eq_some hp
  have hresolve := eq_ok_of_toOption_eq_some hm
  obtain ⟨henums, _, hobjects, hroot, _⟩ := indexes_of_resolve hload hresolve
  exact ⟨p, m, hload, hresolve, Option.some.inj hok, henums, hobjects, hroot⟩

end Model

end RecordSchema
