import Mathlib.Data.List.Induction
import Mathlib.Logic.Relation
import RecordSchema.Proofs.Program.Loaded
import RecordSchema.Proofs.Store.Source

/-!
# The import graph

A document imports what its references lead to. In a list of loaded namespaces the imports of every
document stand before it, so the list holds whatever can be reached from its documents, and none of
them is reached from itself.
-/

namespace RecordSchema

open Text Relation

/-- The references of an entry in the document at a path; an entry that is no import has none. -/
def Entry.references (path : Text) (e : Entry) : List Text :=
  if e.key.keyword = .imports then (e.imports path).toOption.getD [] else []

theorem Entry.references_eq {path : Text} {e : Entry} {refs : List Text}
    (hk : e.key.keyword = .imports) (h : e.imports path = .ok refs) : e.references path = refs := by
  rw [references, if_pos hk, h]
  rfl

namespace Document

/-- The references of the imports of a document, in declaration order. -/
def references (d : Document) : List Text := d.entries.flatMap (Entry.references d.path)

/-- Whether all imports of a document can be read and all bodies have the shape of their kind. -/
def isWellShaped (d : Document) : Bool :=
  d.entries.all fun e =>
    if e.key.keyword = .imports then (e.imports d.path).isOk else Load.hasShape e

theorem imports_eq_references {d : Document}
    (h : ∀ e ∈ d.entries, e.key.keyword = .imports → ∃ refs, e.imports d.path = .ok refs) :
    d.imports = .ok d.references := by
  suffices hmap : ∀ es : List Entry,
      (∀ e ∈ es, e.key.keyword = .imports → ∃ refs, e.imports d.path = .ok refs) →
      ∃ lists, ((es.filter fun e => e.key.keyword = .imports).mapM fun e => e.imports d.path) =
        .ok lists ∧ lists.flatten = es.flatMap (Entry.references d.path) by
    obtain ⟨lists, hlists, hflat⟩ := hmap d.entries h
    exact bind_eq_ok_iff.mpr ⟨lists, hlists, congrArg Except.ok hflat⟩
  intro es hes
  induction es with
  | nil => exact ⟨[], rfl, rfl⟩
  | cons e rest ih =>
      obtain ⟨he, hrest⟩ := List.forall_mem_cons.mp hes
      obtain ⟨lists, hlists, hflat⟩ := ih hrest
      by_cases hk : e.key.keyword = .imports
      · obtain ⟨refs, hrefs⟩ := he hk
        refine ⟨refs :: lists, ?_, ?_⟩
        · rw [List.filter_cons_of_pos (by simpa using hk), List.mapM_cons]
          exact bind_eq_ok_iff.mpr ⟨refs, hrefs, bind_eq_ok_iff.mpr ⟨lists, hlists, rfl⟩⟩
        · rw [List.flatten_cons, List.flatMap_cons, hflat, Entry.references_eq hk hrefs]
      · refine ⟨lists, ?_, ?_⟩
        · rw [List.filter_cons_of_neg (by simpa using hk), hlists]
        · rw [List.flatMap_cons, Entry.references, if_neg hk, hflat]
          rfl

end Document

namespace Source

variable {source : Source} {path other : Text}

/-- The document at a path, if it can be read and parsed. -/
def document? (source : Source) (path : Text) : Option Document := do
  let text ← (source.read path).toOption
  (Document.parse path text).toOption

theorem document?_eq_some_iff {d : Document} :
    source.document? path = some d ↔
      ∃ text, source.read path = .ok text ∧ Document.parse path text = .ok d := by
  constructor
  · intro h
    obtain ⟨text, htext, h⟩ := Option.bind_eq_some_iff.mp h
    exact ⟨text, eq_ok_of_toOption_eq_some htext, eq_ok_of_toOption_eq_some h⟩
  · rintro ⟨text, htext, hd⟩
    rw [document?, htext]
    refine Option.bind_eq_some_iff.mpr ⟨text, rfl, ?_⟩
    rw [hd]
    rfl

/-- The paths that a document refers to. -/
def importsOf (source : Source) (path : Text) : List Text :=
  match source.document? path with
  | some d => d.references.map (resolve path)
  | none => []

/-- Whether the document at a path imports another one. -/
def Imports (source : Source) (path other : Text) : Prop := other ∈ source.importsOf path

/-- Whether the document at a path can be read and parsed and is well shaped. -/
def isWellShaped (source : Source) (path : Text) : Bool :=
  (source.document? path).any Document.isWellShaped

theorem imports_iff :
    source.Imports path other ↔
      ∃ d, source.document? path = some d ∧ ∃ ref ∈ d.references, resolve path ref = other := by
  unfold Imports importsOf
  cases source.document? path with
  | some d => simp
  | none => simp

theorem imports_of_mem {d : Document} (hd : source.document? path = some d) {x : Entry}
    (hx : x ∈ d.entries) {ref : Text} (href : ref ∈ x.references path) :
    source.Imports path (resolve path ref) := by
  obtain ⟨text, _, hparse⟩ := document?_eq_some_iff.mp hd
  refine imports_iff.mpr ⟨d, hd, ref, List.mem_flatMap.mpr ⟨x, hx, ?_⟩, rfl⟩
  rw [Document.path_of_parse hparse]
  exact href

theorem Imports.clean (h : source.Imports path other) : Path.clean other = other := by
  obtain ⟨_, _, ref, _, rfl⟩ := imports_iff.mp h
  exact clean_resolve path ref

theorem Imports.exists_read (h : source.Imports path other) :
    ∃ text, source.read path = .ok text := by
  obtain ⟨d, hd, _⟩ := imports_iff.mp h
  obtain ⟨text, htext, _⟩ := document?_eq_some_iff.mp hd
  exact ⟨text, htext⟩

end Source

namespace Namespace

variable {find : Text → Option Namespace} {n n' : Namespace}

theorem eraseDups_concat (before : List Text) (ref : Text) :
    (before ++ [ref]).eraseDups =
      if before.eraseDups.contains ref then before.eraseDups else before.eraseDups ++ [ref] := by
  rw [List.eraseDups_append]
  by_cases hmem : ref ∈ before
  · simp [List.removeAll, hmem]
  · simp [List.removeAll, hmem, List.eraseDups_cons]

theorem imports_of_takeImports {refs before : List Text} (hn : n.imports = before.eraseDups)
    (h : takeImports find refs n = some n') : n'.imports = (before ++ refs).eraseDups := by
  induction refs generalizing n before with
  | nil =>
      cases h
      rw [hn, List.append_nil]
  | cons ref rest ih =>
      have hconcat := eraseDups_concat before ref
      rw [takeImports, hn] at h
      rw [List.append_cons]
      split at h
      · next hc =>
          rw [if_pos hc] at hconcat
          exact ih (hn.trans hconcat.symm) h
      · next hc =>
          rw [if_neg hc] at hconcat
          obtain ⟨m, _, h⟩ := Option.bind_eq_some_iff.mp h
          exact ih (by rw [importing, hn, hconcat]) h

theorem path_of_takeImports {refs : List Text} (h : takeImports find refs n = some n') :
    n'.path = n.path :=
  takeImports_induction (P := fun a => a.path = n.path) (fun _ _ _ ha _ => ha) h rfl

/-- The references of a namespace are those of the entries, each once. -/
theorem imports_of_takeEntries {es : List Entry} (before : List Text)
    (hn : n.imports = before.eraseDups) (h : takeEntries find es n = some n') :
    n'.imports = (before ++ es.flatMap (Entry.references n.path)).eraseDups ∧
      ∀ e ∈ es, e.key.keyword = .imports → ∃ refs, e.imports n.path = .ok refs := by
  induction es generalizing n before with
  | nil =>
      cases h
      exact ⟨by rw [hn, List.flatMap_nil, List.append_nil], by simp⟩
  | cons e rest ih =>
      rw [takeEntries] at h
      rw [List.flatMap_cons, List.forall_mem_cons]
      split at h
      · next hk =>
          obtain ⟨refs, hrefs, h⟩ := Option.bind_eq_some_iff.mp h
          obtain ⟨n₁, hn₁, h⟩ := Option.bind_eq_some_iff.mp h
          obtain ⟨himports, hall⟩ := ih _ (imports_of_takeImports hn hn₁) h
          rw [path_of_takeImports hn₁] at himports hall
          have hrefs := eq_ok_of_toOption_eq_some hrefs
          rw [Entry.references_eq hk hrefs, ← List.append_assoc]
          exact ⟨himports, fun _ => ⟨refs, hrefs⟩, hall⟩
      · next hk =>
          split at h
          · obtain ⟨himports, hall⟩ := ih (n := n.defining e) before hn h
            rw [Entry.references, if_neg hk, List.nil_append]
            exact ⟨himports, fun hk' => absurd hk' hk, hall⟩
          · cases h

end Namespace

open Namespace

section At

variable {source : Source} {find : Text → Option Namespace} {path other : Text} {n : Namespace}

/-- The references of a namespace are those of its document, and all of them have been found. -/
theorem Source.imports_of_namespaceAt? (h : source.namespaceAt? find path = some n) :
    ∃ d, source.document? path = some d ∧ d.path = path ∧
      takeEntries find d.entries { path, name := Source.schemaName path } = some n ∧
      d.imports = .ok d.references ∧ n.imports = d.references.eraseDups ∧
      ∀ ref ∈ n.imports, ∃ m, find (Source.resolve path ref) = some m := by
  have hn := Source.path_of_namespaceAt? h
  obtain ⟨text, d, htext, hd, h⟩ := Source.namespaceAt?_eq_some_iff.mp h
  have hpath := Document.path_of_parse hd
  obtain ⟨himports, hall⟩ := imports_of_takeEntries [] rfl h
  have hfound := takeEntries_induction
    (P := fun a => ∀ ref ∈ a.imports, ∃ m, find (Source.resolve a.path ref) = some m)
    (fun a ref m ha hm ref' href' => by
      rcases List.mem_append.mp href' with href' | href'
      · exact ha ref' href'
      · rw [List.mem_singleton.mp href']
        exact ⟨m, hm⟩)
    (fun _ _ _ ha _ => ha) h (by simp)
  rw [hn] at hfound
  subst hpath
  exact ⟨d, Source.document?_eq_some_iff.mpr ⟨text, htext, hd⟩, rfl, h,
    Document.imports_eq_references hall, himports, hfound⟩

theorem Source.exists_of_imports (h : source.namespaceAt? find path = some n)
    (hi : source.Imports path other) : ∃ m, find other = some m := by
  obtain ⟨d, hd, _, _, _, himports, hfound⟩ := Source.imports_of_namespaceAt? h
  obtain ⟨d', hd', ref, href, rfl⟩ := Source.imports_iff.mp hi
  cases hd.symm.trans hd'
  exact hfound ref (himports ▸ List.mem_eraseDups.mpr href)

end At

namespace Loaded

variable {source : Source} {done before after : List Namespace} {n : Namespace} {path other : Text}

theorem left_of_append (h : Loaded source (before ++ after)) : Loaded source before := by
  induction after using List.reverseRecOn with
  | nil => rwa [List.append_nil] at h
  | append_singleton after last ih =>
      rw [← List.append_assoc] at h
      generalize hall : before ++ after ++ [last] = all at h
      cases h with
      | nil => simp at hall
      | snoc hdone _ _ =>
          obtain ⟨hinit, _⟩ := List.append_inj' hall rfl
          exact ih (hinit ▸ hdone)

/-- The imports of a document stand before it. -/
theorem mem_before_of_imports (h : Loaded source (before ++ n :: after))
    (hi : source.Imports n.path other) : other ∈ before.map Namespace.path := by
  rw [List.append_cons] at h
  generalize hall : before ++ [n] = all at h
  cases h.left_of_append with
  | nil => simp at hall
  | snoc _ _ hat =>
      obtain ⟨rfl, heq⟩ := List.append_inj' hall rfl
      cases heq
      obtain ⟨m, hm⟩ := Source.exists_of_imports hat hi
      obtain ⟨hmem, rfl⟩ := mem_of_findIn hm
      exact List.mem_map_of_mem hmem

/-- The imports of the documents of a list are in the list, at an earlier place. -/
theorem mem_of_imports (h : Loaded source done) (hpath : path ∈ done.map Namespace.path)
    (hi : source.Imports path other) :
    other ∈ done.map Namespace.path ∧
      (done.map Namespace.path).idxOf other < (done.map Namespace.path).idxOf path := by
  obtain ⟨n, hn, rfl⟩ := List.mem_map.mp hpath
  obtain ⟨before, after, rfl⟩ := List.append_of_mem hn
  have hmem := h.mem_before_of_imports hi
  have hnot : n.path ∉ before.map Namespace.path := by
    have hnodup := h.nodup_path
    rw [List.map_append, List.map_cons] at hnodup
    intro hin
    exact List.disjoint_of_nodup_append hnodup hin List.mem_cons_self
  rw [List.map_append, List.idxOf_append_of_mem hmem, List.idxOf_append_of_notMem hnot]
  refine ⟨List.mem_append_left _ hmem, ?_⟩
  exact Nat.lt_of_lt_of_le (List.idxOf_lt_length_of_mem hmem) (Nat.le_add_right _ _)

theorem mem_of_reachable (h : Loaded source done) (hpath : path ∈ done.map Namespace.path)
    (hr : ReflTransGen source.Imports path other) : other ∈ done.map Namespace.path := by
  induction hr with
  | refl => exact hpath
  | tail _ hi ih => exact (h.mem_of_imports ih hi).1

theorem not_transGen_imports (h : Loaded source done) (hpath : path ∈ done.map Namespace.path) :
    ¬ TransGen source.Imports path path := by
  suffices hlt : ∀ other, TransGen source.Imports path other →
      (done.map Namespace.path).idxOf other < (done.map Namespace.path).idxOf path from
    fun hcycle => Nat.lt_irrefl _ (hlt path hcycle)
  intro other hr
  induction hr with
  | single hi => exact (h.mem_of_imports hpath hi).2
  | tail hr hi ih =>
      have hmem := h.mem_of_reachable hpath hr.to_reflTransGen
      exact Nat.lt_trans (h.mem_of_imports hmem hi).2 ih

end Loaded

end RecordSchema
