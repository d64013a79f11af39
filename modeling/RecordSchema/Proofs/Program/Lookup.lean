import Mathlib.Data.List.Find
import RecordSchema.Proofs.Program.Imports
import RecordSchema.Proofs.Program.Load
import RecordSchema.Store.Library

/-!
# Looking up definitions

The scope of imports is made by setting all definitions of one import after the other. What is found
in it is nevertheless found by the rule of look-up alone: the last reference whose document finds
the name decides, and in a document its own declaration comes first.
-/

namespace RecordSchema

open Text

theorem Definition.isNamed_eq_true_iff {k : Keyword} {name : Text} {d : Definition} :
    d.isNamed k name = true ↔ d.named = ⟨k, name⟩ := by
  simp [isNamed, named]

namespace Scope

variable {k : Keyword} {name : Text}

theorem get?_set (s : Scope) (d : Definition) :
    (s.set d).get? k name = if d.named = ⟨k, name⟩ then some d else s.get? k name := by
  obtain ⟨ds⟩ := s
  unfold set get?
  by_cases hd : d.named = ⟨k, name⟩
  · have hnamed := Definition.isNamed_eq_true_iff.mpr hd
    rw [if_pos hd]
    induction ds with
    | nil => exact List.find?_cons_of_pos hnamed
    | cons e rest ih =>
        rw [setIn]
        split
        · exact List.find?_cons_of_pos hnamed
        · next he =>
            rw [List.find?_cons_of_neg, ih]
            rw [Definition.isNamed_eq_true_iff, ← hd, ← Definition.isNamed_iff]
            exact he
  · have hnamed := mt Definition.isNamed_eq_true_iff.mp hd
    rw [if_neg hd]
    induction ds with
    | nil => exact List.find?_cons_of_neg hnamed
    | cons e rest ih =>
        rw [setIn]
        split
        · next he =>
            have hother : ¬ e.isNamed k name = true := by
              rw [Definition.isNamed_eq_true_iff, Definition.isNamed_iff.mp he]
              exact hd
            rw [List.find?_cons_of_neg hnamed, List.find?_cons_of_neg hother]
        · rw [List.find?_cons, List.find?_cons, ih]

theorem Distinct.update {s : Scope} (h : s.Distinct) (other : Scope) :
    (s.update other).Distinct := by
  unfold Scope.update
  generalize other.definitions = ds
  induction ds generalizing s with
  | nil => exact h
  | cons d rest ih => exact ih (h.set d)

/-- After definitions have been set, the one of a name is found, and otherwise what was found
before. -/
theorem get?_foldl_set {ds : List Definition} (h : (ds.map Definition.named).Nodup) (s : Scope) :
    (ds.foldl set s).get? k name = (ds.find? (Definition.isNamed k name)).or (s.get? k name) := by
  induction ds generalizing s with
  | nil => rfl
  | cons d rest ih =>
      obtain ⟨hnew, hrest⟩ := List.nodup_cons.mp h
      rw [List.foldl_cons, ih hrest, get?_set]
      by_cases hd : d.named = ⟨k, name⟩
      · -- The name does not occur again, so nothing takes the place of the definition.
        have hnone : rest.find? (Definition.isNamed k name) = none := by
          rw [List.find?_eq_none]
          intro e he hnamed
          refine hnew (List.mem_map.mpr ⟨e, he, ?_⟩)
          rw [Definition.isNamed_eq_true_iff.mp hnamed, hd]
        rw [if_pos hd, hnone, List.find?_cons_of_pos (Definition.isNamed_eq_true_iff.mpr hd)]
        rfl
      · rw [if_neg hd, List.find?_cons_of_neg (mt Definition.isNamed_eq_true_iff.mp hd)]

theorem get?_update (s : Scope) {other : Scope} (h : other.Distinct) :
    (s.update other).get? k name = (other.get? k name).or (s.get? k name) :=
  get?_foldl_set h s

/-- Scopes with the same definitions find the same, in whatever order they hold them. -/
theorem get?_of_perm {s s' : Scope} (h : s.Distinct) (hperm : s'.definitions.Perm s.definitions)
    (k : Keyword) (name : Text) : s'.get? k name = s.get? k name := by
  refine (List.find?_eq_find?_of_perm hperm.symm ?_).symm
  rintro d ⟨hd, hnamed⟩ e ⟨he, hnamed'⟩
  rw [Definition.isNamed_eq_true_iff] at hnamed hnamed'
  exact List.inj_on_of_nodup_map h hd he (hnamed.trans hnamed'.symm)

end Scope

namespace Namespace

variable {find : Text → Option Namespace} {n n' m : Namespace} {k : Keyword} {name : Text}

theorem lookup?_eq_or (n : Namespace) (k : Keyword) (name : Text) :
    n.lookup? k name = (n.own.get? k name).or (n.external.get? k name) := by
  unfold lookup?
  cases n.own.get? k name with
  | some d => rfl
  | none => rfl

/-- What the references of a namespace find, the last one first. -/
def imported? (find : Text → Option Namespace) (n : Namespace) (k : Keyword) (name : Text) :
    Option Definition :=
  n.imports.reverse.findSome? fun ref =>
    (find (Source.resolve n.path ref)).bind fun m => m.lookup? k name

theorem imported?_importing {ref : Text} (hm : find (Source.resolve n.path ref) = some m) :
    (n.importing ref m).imported? find k name =
      (m.lookup? k name).or (n.imported? find k name) := by
  unfold imported? importing
  rw [List.reverse_append, List.reverse_singleton, List.singleton_append, List.findSome?_cons, hm,
    Option.bind_some]
  cases m.lookup? k name with
  | some d => rfl
  | none => rfl

theorem external_importing (n : Namespace) (ref : Text) (hown : m.own.Distinct)
    (hexternal : m.external.Distinct) :
    (n.importing ref m).external.get? k name =
      (m.lookup? k name).or (n.external.get? k name) := by
  unfold importing
  rw [Scope.get?_update _ hown, Scope.get?_update _ hexternal, lookup?_eq_or, Option.or_assoc]

theorem distinct_external_of_takeEntries {es : List Entry} (h : takeEntries find es n = some n')
    (hn : n.external.Distinct) : n'.external.Distinct :=
  takeEntries_induction (P := fun a => a.external.Distinct)
    (fun _ _ m ha _ => (ha.update m.external).update m.own) (fun _ _ _ ha _ => ha) h hn

/-- The scope of imports finds what the last of the references finds. -/
theorem external_of_takeEntries {es : List Entry} (h : takeEntries find es n = some n')
    (hfind : ∀ x m, find x = some m → m.own.Distinct ∧ m.external.Distinct)
    (hn : n.external.get? k name = n.imported? find k name) :
    n'.external.get? k name = n'.imported? find k name := by
  refine takeEntries_induction
    (P := fun a => a.external.get? k name = a.imported? find k name) ?_ ?_ h hn
  · intro a ref m ha hm
    obtain ⟨hown, hexternal⟩ := hfind _ m hm
    rw [external_importing a ref hown hexternal, imported?_importing hm, ha]
  · intro a e _ ha _
    exact ha

/-- The definition that the entries of a document give a name, in a namespace. -/
def declared? (n : Namespace) (es : List Entry) (k : Keyword) (name : Text) : Option Definition :=
  (es.find? fun e => e.key.keyword ≠ .imports ∧ e.key = ⟨k, name⟩).map (Load.definition n)

theorem declared?_of_name_eq (hname : n.name = Source.schemaName n.path) (es : List Entry) :
    declared? { path := n.path, name := Source.schemaName n.path } es k name =
      n.declared? es k name := by
  unfold declared? Load.definition
  rw [hname]

theorem own_of_takeImports {refs : List Text} (h : takeImports find refs n = some n') :
    n'.own = n.own ∧ ∀ e, Load.definition n' e = Load.definition n e :=
  takeImports_induction
    (P := fun a => a.own = n.own ∧ ∀ e, Load.definition a e = Load.definition n e)
    (fun _ _ _ ha _ => ha) h ⟨rfl, fun _ => rfl⟩

/-- The scope of a document itself finds what its entries declare. -/
theorem own_of_takeEntries {es : List Entry} (h : takeEntries find es n = some n')
    (hkeys : ((es.filter fun e => e.key.keyword ≠ .imports).map Entry.key).Nodup) :
    n'.own.get? k name = (n.declared? es k name).or (n.own.get? k name) := by
  induction es generalizing n with
  | nil =>
      cases h
      rfl
  | cons e rest ih =>
      rw [takeEntries] at h
      by_cases hk : e.key.keyword = .imports
      · rw [if_pos hk] at h
        rw [List.filter_cons_of_neg (by simpa using hk)] at hkeys
        obtain ⟨refs, _, h⟩ := Option.bind_eq_some_iff.mp h
        obtain ⟨n₁, hn₁, h⟩ := Option.bind_eq_some_iff.mp h
        obtain ⟨hown, hdefinition⟩ := own_of_takeImports hn₁
        rw [ih h hkeys, hown, declared?, declared?, funext hdefinition,
          List.find?_cons_of_neg (by simp [hk])]
      · rw [if_neg hk] at h
        rw [List.filter_cons_of_pos (by simpa using hk), List.map_cons] at hkeys
        obtain ⟨hnew, hrest⟩ := List.nodup_cons.mp hkeys
        split at h
        · rw [ih h hrest, defining, Scope.get?_set]
          by_cases he : e.key = ⟨k, name⟩
          · have hnone : rest.find? (fun e => e.key.keyword ≠ .imports ∧ e.key = ⟨k, name⟩) =
                none := by
              rw [List.find?_eq_none]
              intro e' he' hnamed
              obtain ⟨hk', heq⟩ := of_decide_eq_true hnamed
              refine hnew (List.mem_map.mpr ⟨e', List.mem_filter.mpr ⟨he', ?_⟩, heq.trans he.symm⟩)
              simpa using hk'
            rw [declared?, hnone, declared?, List.find?_cons_of_pos (by simpa using ⟨hk, he⟩)]
            exact if_pos he
          · rw [declared?, declared?, List.find?_cons_of_neg (by simp [he]), if_neg]
            · rfl
            · exact he
        · cases h

end Namespace

open Namespace

namespace Loaded

variable {source : Source} {done : List Namespace} {n : Namespace}

theorem distinct (h : Loaded source done) (hn : n ∈ done) :
    n.own.Distinct ∧ n.external.Distinct := by
  obtain ⟨_, _, _, htake, _⟩ := Source.imports_of_namespaceAt? (h.namespaceAt?_eq_some hn)
  exact ⟨(h.declares hn).distinct, distinct_external_of_takeEntries htake List.nodup_nil⟩

end Loaded

namespace Program

/-- Every namespace of a loaded program looks names up by the rule: the document's own declaration,
then what the last of its references finds whose document finds the name. The scope of its imports
alone follows the second part of the rule, for names that it declares as well. -/
theorem lookup?_of_load {source : Source} {root : Text} {p : Program}
    (h : (load source root).1 = .ok p) {n : Namespace} (hn : n ∈ p.namespaces) :
    ∃ text d refs, source.read n.path = .ok text ∧ Document.parse n.path text = .ok d ∧
      d.imports = .ok refs ∧ n.imports = refs.eraseDups ∧
      (∀ ref ∈ n.imports, ∃ m ∈ p.namespaces, p.namespace? (Source.resolve n.path ref) = some m) ∧
      ∀ k name,
        n.lookup? k name =
            (n.declared? d.entries k name).or (n.imported? p.namespace? k name) ∧
          n.external.get? k name = n.imported? p.namespace? k name := by
  have hloaded := (loadedFrom_of_load h).loaded
  obtain ⟨d, hd, hpath, htake, himports, hrefs, hfound⟩ :=
    Source.imports_of_namespaceAt? (hloaded.namespaceAt?_eq_some hn)
  obtain ⟨text, htext, hparse⟩ := Source.document?_eq_some_iff.mp hd
  refine ⟨text, d, d.references, htext, hparse, himports, hrefs, ?_, ?_⟩
  · intro ref href
    obtain ⟨m, hm⟩ := hfound ref href
    exact ⟨m, (mem_of_findIn hm).1, hm⟩
  · intro k name
    have hexternal : n.external.get? k name = n.imported? p.namespace? k name :=
      external_of_takeEntries htake (fun x m hm => hloaded.distinct (mem_of_findIn hm).1) rfl
    have hown : n.own.get? k name = n.declared? d.entries k name :=
      calc n.own.get? k name
          = (declared? { path := n.path, name := Source.schemaName n.path } d.entries k name).or
              none := own_of_takeEntries htake (Document.nodup_key_of_parse hparse)
        _ = declared? { path := n.path, name := Source.schemaName n.path } d.entries k name :=
          Option.or_none
        _ = n.declared? d.entries k name :=
          declared?_of_name_eq (hloaded.declares hn).name_eq d.entries
    exact ⟨by rw [lookup?_eq_or, hown, hexternal], hexternal⟩

/-- Two documents that import a third one, and a document that imports both of them and declares
one of their names. -/
def sharedDocuments : Library :=
  .ofList [("a.yaml", "Import: [lib/b.yaml, c.yaml]\nConstant M: 1\n"),
    ("lib/b.yaml", "Import: ../d.yaml\nConstant M: 2\nConstant N: 2\n"),
    ("c.yaml", "Import: d.yaml\nConstant M: 3\n"), ("d.yaml", "Constant N: 4\n")]

/-- The documents in which the root finds a constant, and in which its imports find it. -/
def foundIn (p : Program) (name : Text) : Option (Text × Text) := do
  let d ← p.root.lookup? .constant name
  let e ← p.root.external.get? .constant name
  return (d.document, e.document)

theorem lookup?_of_load_shared :
    ∃ p, (load sharedDocuments.source "a.yaml").1 = .ok p ∧ p.root ∈ p.namespaces ∧
      p.foundIn "M" = some (("a.yaml" : Text), ("c.yaml" : Text)) ∧
      p.foundIn "N" = some (("d.yaml" : Text), ("d.yaml" : Text)) ∧
      ∃ text d refs, sharedDocuments.source.read p.root.path = .ok text ∧
        Document.parse p.root.path text = .ok d ∧ d.imports = .ok refs ∧
        p.root.imports = refs.eraseDups ∧
        (∀ ref ∈ p.root.imports, ∃ m ∈ p.namespaces,
          p.namespace? (Source.resolve p.root.path ref) = some m) ∧
        ∀ k name,
          p.root.lookup? k name =
              (p.root.declared? d.entries k name).or (p.root.imported? p.namespace? k name) ∧
            p.root.external.get? k name = p.root.imported? p.namespace? k name := by
  have hok : (do
      let p ← (load sharedDocuments.source "a.yaml").1.toOption
      return (p.foundIn "M", p.foundIn "N")) =
        some (some (("a.yaml" : Text), ("c.yaml" : Text)),
          some (("d.yaml" : Text), ("d.yaml" : Text))) := by
    decide +kernel
  obtain ⟨p, hp, hok⟩ := Option.bind_eq_some_iff.mp hok
  obtain ⟨hm, hn⟩ := Prod.mk.inj (Option.some.inj hok)
  have hload := eq_ok_of_toOption_eq_some hp
  have hroot := (loadedFrom_of_load hload).root_mem
  exact ⟨p, hload, hroot, hm, hn, lookup?_of_load hload hroot⟩

end Program

end RecordSchema
