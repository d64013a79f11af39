import RecordSchema.Proofs.Keyed
import RecordSchema.Proofs.Program.Namespace
import RecordSchema.Proofs.Schema.Document

/-!
# Lists of loaded namespaces

In a list of loaded namespaces every namespace is that of its document over the namespaces before
it. Such a list is closed under look-up: whatever is found in a namespace is declared by a document
of the list.
-/

namespace RecordSchema

open Text

/-- The namespace of the document at a path, where `find` gives those of the documents it
imports. -/
def Source.namespaceAt? (source : Source) (find : Text → Option Namespace) (path : Text) :
    Option Namespace := do
  let text ← (source.read path).toOption
  let d ← (Document.parse path text).toOption
  Namespace.takeEntries find d.entries { path, name := Source.schemaName path }

namespace Namespace

/-- The namespace of a path in a list. -/
def findIn (done : List Namespace) (path : Text) : Option Namespace :=
  done.find? fun n => n.path == path

theorem findIn_append {done : List Namespace} {x : Text} {m : Namespace}
    (h : findIn done x = some m) (more : List Namespace) : findIn (done ++ more) x = some m := by
  unfold findIn at h ⊢
  rw [List.find?_append, h]
  rfl

theorem mem_of_findIn {done : List Namespace} {x : Text} {m : Namespace}
    (h : findIn done x = some m) : m ∈ done ∧ m.path = x :=
  ⟨List.mem_of_find?_eq_some h, by simpa using List.find?_some h⟩

theorem findIn_eq_none_iff {done : List Namespace} {x : Text} :
    findIn done x = none ↔ x ∉ done.map Namespace.path := by
  simp [findIn, List.find?_eq_none]

end Namespace

open Namespace

section At

variable {source : Source} {find find' : Text → Option Namespace} {path : Text} {n : Namespace}

theorem Source.namespaceAt?_eq_some_iff :
    source.namespaceAt? find path = some n ↔
      ∃ text d, source.read path = .ok text ∧ Document.parse path text = .ok d ∧
        takeEntries find d.entries { path, name := Source.schemaName path } = some n := by
  constructor
  · intro h
    obtain ⟨text, htext, h⟩ := Option.bind_eq_some_iff.mp h
    obtain ⟨d, hd, h⟩ := Option.bind_eq_some_iff.mp h
    exact ⟨text, d, eq_ok_of_toOption_eq_some htext, eq_ok_of_toOption_eq_some hd, h⟩
  · rintro ⟨text, d, htext, hd, h⟩
    unfold Source.namespaceAt?
    rw [htext]
    refine Option.bind_eq_some_iff.mpr ⟨text, rfl, ?_⟩
    rw [hd]
    exact Option.bind_eq_some_iff.mpr ⟨d, rfl, h⟩

theorem Source.namespaceAt?_mono (hle : ∀ x m, find x = some m → find' x = some m)
    (h : source.namespaceAt? find path = some n) : source.namespaceAt? find' path = some n := by
  obtain ⟨text, d, htext, hd, h⟩ := Source.namespaceAt?_eq_some_iff.mp h
  exact Source.namespaceAt?_eq_some_iff.mpr ⟨text, d, htext, hd, takeEntries_mono hle h⟩

theorem Source.namespaceAt?_agree {a b : Namespace}
    (hagree : ∀ x m m', find x = some m → find' x = some m' → m = m')
    (ha : source.namespaceAt? find path = some a) (hb : source.namespaceAt? find' path = some b) :
    a = b := by
  obtain ⟨text, d, htext, hd, ha⟩ := Source.namespaceAt?_eq_some_iff.mp ha
  obtain ⟨text', d', htext', hd', hb⟩ := Source.namespaceAt?_eq_some_iff.mp hb
  cases htext.symm.trans htext'
  cases hd.symm.trans hd'
  exact takeEntries_agree hagree ha hb

/-- The definitions that a document declares know where they are from. -/
structure Namespace.Declares (n : Namespace) : Prop where
  name_eq : n.name = Source.schemaName n.path
  distinct : n.own.Distinct
  document_eq : ∀ d ∈ n.own.definitions, d.document = n.path
  origin_eq : ∀ d ∈ n.own.definitions, d.origin = n.name
  isIdentifier : ∀ d ∈ n.own.definitions, RecordSchema.isIdentifier d.name = true

theorem Source.path_of_namespaceAt? (h : source.namespaceAt? find path = some n) :
    n.path = path := by
  obtain ⟨_, d, _, _, h⟩ := Source.namespaceAt?_eq_some_iff.mp h
  exact takeEntries_induction (P := fun n => n.path = path) (fun _ _ _ hn _ => hn)
    (fun _ _ _ hn _ => hn) h rfl

theorem Source.declares_of_namespaceAt? (h : source.namespaceAt? find path = some n) :
    n.Declares := by
  obtain ⟨_, d, _, hd, h⟩ := Source.namespaceAt?_eq_some_iff.mp h
  have hid := Document.isIdentifier_of_parse hd
  refine takeEntries_induction (P := Namespace.Declares) ?_ ?_ h ?_
  · intro n ref m hn _
    exact ⟨hn.name_eq, hn.distinct, hn.document_eq, hn.origin_eq, hn.isIdentifier⟩
  · intro n e he hn hk
    refine ⟨hn.name_eq, hn.distinct.set _, ?_, ?_, ?_⟩
    · intro d hd
      rcases Scope.mem_setIn hd with rfl | hd
      · rfl
      · exact hn.document_eq d hd
    · intro d hd
      rcases Scope.mem_setIn hd with rfl | hd
      · rfl
      · exact hn.origin_eq d hd
    · intro d hd
      rcases Scope.mem_setIn hd with rfl | hd
      · exact hid e he hk
      · exact hn.isIdentifier d hd
  · exact ⟨rfl, List.nodup_nil, by simp, by simp, by simp⟩

/-- What the imports of a document give comes from the documents it imports. -/
theorem Source.mem_external_of_namespaceAt? (h : source.namespaceAt? find path = some n) :
    ∀ d ∈ n.external.definitions,
      ∃ x m, find x = some m ∧ (d ∈ m.own.definitions ∨ d ∈ m.external.definitions) := by
  obtain ⟨_, doc, _, _, h⟩ := Source.namespaceAt?_eq_some_iff.mp h
  refine takeEntries_induction (P := fun n => ∀ d ∈ n.external.definitions,
    ∃ x m, find x = some m ∧ (d ∈ m.own.definitions ∨ d ∈ m.external.definitions)) ?_ ?_ h ?_
  · intro n ref m hn hm d hd
    rcases Scope.mem_update hd with hd | hd
    · rcases Scope.mem_update hd with hd | hd
      · exact hn d hd
      · exact ⟨_, m, hm, Or.inr hd⟩
    · exact ⟨_, m, hm, Or.inl hd⟩
  · intro n e _ hn _
    exact hn
  · simp

end At

/-- Every namespace is that of its document over the namespaces before it. -/
inductive Loaded (source : Source) : List Namespace → Prop where
  | nil : Loaded source []
  | snoc {done : List Namespace} {n : Namespace} (hdone : Loaded source done)
      (hnew : findIn done n.path = none) (hat : source.namespaceAt? (findIn done) n.path = some n) :
      Loaded source (done ++ [n])

namespace Loaded

variable {source : Source} {done done' : List Namespace} {n : Namespace}

theorem nodup_path (h : Loaded source done) : (done.map Namespace.path).Nodup := by
  induction h with
  | nil => exact List.nodup_nil
  | snoc hdone hnew hat ih =>
      rw [List.map_append]
      refine ih.append (List.nodup_singleton _) ?_
      intro x hx hsingle
      rw [List.mem_singleton.mp hsingle] at hx
      exact findIn_eq_none_iff.mp hnew hx

theorem findIn_eq_some (h : Loaded source done) (hn : n ∈ done) : findIn done n.path = some n :=
  find?_key_eq_some h.nodup_path hn

theorem namespaceAt?_eq_some (h : Loaded source done) (hn : n ∈ done) :
    source.namespaceAt? (findIn done) n.path = some n := by
  induction h with
  | nil => cases hn
  | @snoc done m hdone hnew hat ih =>
      have hle : ∀ x a, findIn done x = some a → findIn (done ++ [m]) x = some a :=
        fun x a ha => findIn_append ha [m]
      rcases List.mem_append.mp hn with hn | hn
      · exact Source.namespaceAt?_mono hle (ih hn)
      · rw [List.mem_singleton.mp hn]
        exact Source.namespaceAt?_mono hle hat

theorem declares (h : Loaded source done) (hn : n ∈ done) : n.Declares :=
  Source.declares_of_namespaceAt? (h.namespaceAt?_eq_some hn)

/-- What the imports of a document give is declared by documents at earlier places. -/
theorem exists_earlier_of_mem_external (h : Loaded source done) (hn : n ∈ done) :
    ∀ d ∈ n.external.definitions, ∃ m ∈ done, d ∈ m.own.definitions ∧
      (done.map Namespace.path).idxOf m.path < (done.map Namespace.path).idxOf n.path := by
  induction h generalizing n with
  | nil => cases hn
  | @snoc done last hdone hnew hat ih =>
      intro d hd
      rw [List.map_append]
      rcases List.mem_append.mp hn with hn | hn
      · obtain ⟨m, hm, hdm, hlt⟩ := ih hn d hd
        refine ⟨m, List.mem_append_left _ hm, hdm, ?_⟩
        rwa [List.idxOf_append_of_mem (List.mem_map_of_mem hm),
          List.idxOf_append_of_mem (List.mem_map_of_mem hn)]
      · have hlast := List.mem_singleton.mp hn
        subst hlast
        have hlt : ∀ m ∈ done, (done.map Namespace.path ++ [n].map Namespace.path).idxOf m.path <
            (done.map Namespace.path ++ [n].map Namespace.path).idxOf n.path := by
          intro m hm
          have hpath : m.path ∈ done.map Namespace.path := List.mem_map_of_mem hm
          rw [List.idxOf_append_of_mem hpath,
            List.idxOf_append_of_notMem (findIn_eq_none_iff.mp hnew)]
          exact Nat.lt_of_lt_of_le (List.idxOf_lt_length_of_mem hpath) (Nat.le_add_right _ _)
        obtain ⟨x, m, hm, hd⟩ := Source.mem_external_of_namespaceAt? hat d hd
        have hmem := (mem_of_findIn hm).1
        rcases hd with hd | hd
        · exact ⟨m, List.mem_append_left _ hmem, hd, hlt m hmem⟩
        · obtain ⟨m', hm', hdm', _⟩ := ih hmem d hd
          exact ⟨m', List.mem_append_left _ hm', hdm', hlt m' hm'⟩

theorem mem_own_of_mem_external (h : Loaded source done) (hn : n ∈ done) :
    ∀ d ∈ n.external.definitions, ∃ m ∈ done, d ∈ m.own.definitions := by
  intro d hd
  obtain ⟨m, hm, hdm, _⟩ := h.exists_earlier_of_mem_external hn d hd
  exact ⟨m, hm, hdm⟩

/-- What is found in a namespace is declared by a document of the list. -/
theorem mem_own_of_lookup? (h : Loaded source done) (hn : n ∈ done) {k : Keyword} {name : Text}
    {d : Definition} (hd : n.lookup? k name = some d) :
    ∃ m ∈ done, d ∈ m.own.definitions ∧ d.keyword = k ∧ d.name = name := by
  obtain ⟨hmem, hk, hname⟩ := mem_of_lookup?_eq_some hd
  rcases hmem with hmem | hmem
  · exact ⟨n, hn, hmem, hk, hname⟩
  · obtain ⟨m, hm, hdm⟩ := h.mem_own_of_mem_external hn d hmem
    exact ⟨m, hm, hdm, hk, hname⟩

/-- Two lists agree on the namespaces of the paths that they share. -/
theorem eq_of_path_eq (h : Loaded source done) (h' : Loaded source done') {n' : Namespace}
    (hn : n ∈ done) (hn' : n' ∈ done') (hpath : n.path = n'.path) : n = n' := by
  induction h generalizing n n' with
  | nil => cases hn
  | @snoc done last hdone hnew hat ih =>
      rcases List.mem_append.mp hn with hn | hn
      · exact ih hn hn' hpath
      · have hlast := List.mem_singleton.mp hn
        subst hlast
        have hat' := h'.namespaceAt?_eq_some hn'
        rw [← hpath] at hat'
        refine Source.namespaceAt?_agree ?_ hat hat'
        intro x m m' hm hm'
        obtain ⟨hmem, hx⟩ := mem_of_findIn hm
        obtain ⟨hmem', hx'⟩ := mem_of_findIn hm'
        exact ih hmem hmem' (hx.trans hx'.symm)

end Loaded

end RecordSchema
