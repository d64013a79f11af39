import Mathlib.Data.List.Find
import Mathlib.Data.List.Forall2
import Mathlib.Data.List.Perm.Basic
import RecordSchema.Proofs.Program.Lookup

/-!
# Rearranged documents

The loader sees its documents entry by entry, but only the order of the imports matters to it. If
the other entries of some documents are rearranged, it loads the same documents in the same order,
and their namespaces find the same definitions.
-/

namespace RecordSchema

open Text Namespace

/-- Documents by path, or why there is none at a path. -/
abbrev Documents := Text → Except LoadError Document

/-- The documents of a source. -/
def Source.documents (source : Source) : Documents := fun path =>
  match source.read path with
  | .error e => .error (.unread path e)
  | .ok text =>
    match Document.parse path text with
    | .error e => .error (.schema e)
    | .ok d => .ok d

namespace Load

/-- The namespace of the document at a path, where documents are given as they are parsed. -/
def visitIn (documents : Documents) (load : (opened : List Text) → Text → Load Namespace)
    (opened : List Text) (path : Text) : Load Namespace := do
  match (← get).done.find? fun n => n.path == path with
  | some n => return n
  | none =>
    if opened.contains path then refuse (.importCycle (chain path opened))
    else
      modify fun s => { s with tried := s.tried ++ [path] }
      match documents path with
      | .error e => throw e
      | .ok d =>
        let n ← entries (load (opened ++ [path])) d.entries { path, name := Source.schemaName path }
        (shadows n).forM report
        modify fun s => { s with done := s.done ++ [n] }
        report (.debug "document loaded"
          [("document", .text path), ("objects", .int (n.own.ofKind .object).length),
            ("imports", .int n.imports.length)])
        return n

/-- The namespace of the document at a path, where imports are followed down to a depth. -/
def documentIn (documents : Documents) : Nat → (opened : List Text) → Text → Load Namespace
  | 0, opened, path => refuse (.importCycle (chain path opened))
  | depth + 1, opened, path => visitIn documents (documentIn documents depth) opened path

theorem visit_eq_visitIn (source : Source)
    (load : (opened : List Text) → Text → Load Namespace) (opened : List Text) (path : Text) :
    visit source load opened path = visitIn source.documents load opened path := by
  unfold visit visitIn Source.documents
  cases source.read path with
  | error e => rfl
  | ok text =>
      simp only
      cases Document.parse path text with
      | error e => rfl
      | ok d => rfl

theorem document_eq_documentIn (source : Source) (depth : Nat) :
    document source depth = documentIn source.documents depth := by
  induction depth with
  | zero => rfl
  | succ depth ih =>
      funext opened path
      rw [document, documentIn, ih]
      exact visit_eq_visitIn source _ opened path

end Load

/-- Loads the document at `root` and everything it imports down to a depth, from documents. -/
def Program.loadIn (documents : Documents) (depth : Nat) (root : Text) :
    Except LoadError Program × Loading :=
  let (result, state) := (Load.documentIn documents depth [] root).run {}
  (result.map fun n => ⟨n, state.done⟩, state)

/-- A source is loaded as its documents are. -/
theorem Program.load_eq_loadIn (source : Source) (root : Text) :
    load source root = loadIn source.documents (source.size + 3) root := by
  unfold loadIn
  rw [← Load.document_eq_documentIn]
  rfl

theorem Program.loadIn_eq_ok_iff {documents : Documents} {depth : Nat} {root : Text} {p : Program} :
    (loadIn documents depth root).1 = .ok p ↔
      ∃ s, (Load.documentIn documents depth [] root).run {} = (.ok p.root, s) ∧
        p.namespaces = s.done := by
  unfold loadIn
  rcases (Load.documentIn documents depth [] root).run {} with ⟨e | n, s'⟩
  · constructor
    · intro h
      cases h
    · rintro ⟨s, h, _⟩
      cases h
  · constructor
    · intro h
      cases h
      exact ⟨s', rfl, rfl⟩
    · rintro ⟨s, h, hdone⟩
      cases h
      cases p
      cases hdone
      rfl

namespace Document

/-- The entries that define something. -/
def definitions (d : Document) : List Entry := d.entries.filter fun e => e.key.keyword ≠ .imports

/-- The names of the definitions of a kind, in document order. -/
def names (d : Document) (k : Keyword) : List Text :=
  (d.definitions.filter fun e => e.key.keyword = k).map fun e => e.key.name

/-- What a parser grants of the keys of a document. -/
structure IsKeyed (d : Document) : Prop where
  nodup_key : (d.definitions.map Entry.key).Nodup
  isIdentifier : ∀ e ∈ d.definitions, RecordSchema.isIdentifier e.key.name = true

theorem isKeyed_of_parse {path text : Text} {d : Document} (h : parse path text = .ok d) :
    d.IsKeyed := by
  refine ⟨nodup_key_of_parse h, fun e he => ?_⟩
  obtain ⟨he, hk⟩ := List.mem_filter.mp he
  exact isIdentifier_of_parse h e he (of_decide_eq_true hk)

/-- Whether a document has the entries of another one in another order, its imports in the same
one. -/
structure Rearranges (d d' : Document) : Prop where
  perm : d'.entries.Perm d.entries
  imports_eq : (d'.entries.filter fun e => e.key.keyword = .imports) =
    d.entries.filter fun e => e.key.keyword = .imports
  isKeyed : d.IsKeyed

variable {d d' : Document}

theorem Rearranges.definitions_perm (h : d.Rearranges d') : d'.definitions.Perm d.definitions :=
  h.perm.filter _

theorem Rearranges.symm (h : d.Rearranges d') : d'.Rearranges d := by
  refine ⟨h.perm.symm, h.imports_eq.symm, ?_, ?_⟩
  · exact (h.definitions_perm.map Entry.key).nodup_iff.mpr h.isKeyed.nodup_key
  · intro e he
    exact h.isKeyed.isIdentifier e (h.definitions_perm.mem_iff.mp he)

end Document

theorem Source.isKeyed_of_documents {source : Source} {path : Text} {d : Document}
    (h : source.documents path = .ok d) : d.IsKeyed := by
  unfold Source.documents at h
  split at h
  · cases h
  · split at h
    · cases h
    · next hparse =>
        cases h
        exact Document.isKeyed_of_parse hparse

/-- Whether the document at a path is rearranged. Where there is none, there is none again. -/
inductive Rearranged : Except LoadError Document → Except LoadError Document → Prop where
  | missing {e e' : LoadError} : Rearranged (.error e) (.error e')
  | document {d d' : Document} (h : d.Rearranges d') : Rearranged (.ok d) (.ok d')

theorem Rearranged.symm {x y : Except LoadError Document} (h : Rearranged x y) :
    Rearranged y x := by
  cases h with
  | missing => exact .missing
  | document h => exact .document h.symm

theorem isKeyed_of_rearranged {documents documents' : Documents}
    (h : ∀ path, Rearranged (documents path) (documents' path)) (path : Text) (d : Document)
    (hd : documents path = .ok d) : d.IsKeyed := by
  have hpath := h path
  rw [hd] at hpath
  generalize documents' path = other at hpath
  cases hpath with
  | document hrearranges => exact hrearranges.isKeyed

namespace Scope

/-- Definitions with new names are added at the end. -/
theorem foldl_set_eq {ds : List Definition} {s : Scope}
    (h : ((s.definitions ++ ds).map Definition.named).Nodup) :
    ds.foldl set s = ⟨s.definitions ++ ds⟩ := by
  induction ds generalizing s with
  | nil => rw [List.foldl_nil, List.append_nil]
  | cons d rest ih =>
      have hset : s.set d = ⟨s.definitions ++ [d]⟩ := by
        have hnew : ∀ e ∈ s.definitions, e.named ≠ d.named := by
          rw [List.map_append, List.nodup_append] at h
          intro e he
          exact h.2.2 _ (List.mem_map_of_mem he) _ (List.mem_map_of_mem List.mem_cons_self)
        have hsetIn : ∀ es : List Definition, (∀ e ∈ es, e.named ≠ d.named) →
            setIn d es = es ++ [d] := by
          intro es hes
          induction es with
          | nil => rfl
          | cons e more ihes =>
              obtain ⟨he, hmore⟩ := List.forall_mem_cons.mp hes
              rw [setIn, if_neg (mt Definition.isNamed_iff.mp he), ihes hmore, List.cons_append]
        rw [set, hsetIn _ hnew]
      rw [List.foldl_cons, hset, ih (by simpa using h)]
      simp

end Scope

namespace Namespace

/-- The namespace of a path before anything has been taken in. -/
def blank (path : Text) : Namespace := { path, name := Source.schemaName path }

/-- Whether two namespaces have the same imports and find the same in them. -/
structure ImportsAlike (n n' : Namespace) : Prop where
  path_eq : n'.path = n.path
  name_eq : n'.name = n.name
  imports_eq : n'.imports = n.imports
  external_eq : ∀ k name, n'.external.get? k name = n.external.get? k name
  distinct_external : n.external.Distinct
  distinct_external' : n'.external.Distinct

/-- Whether two namespaces also have the same definitions of their own, in some order. -/
structure Alike (n n' : Namespace) : Prop extends ImportsAlike n n' where
  own_perm : n'.own.definitions.Perm n.own.definitions
  distinct_own : n.own.Distinct

variable {n n' m m' : Namespace}

theorem ImportsAlike.refl_blank (path : Text) : ImportsAlike (blank path) (blank path) :=
  ⟨rfl, rfl, rfl, fun _ _ => rfl, List.nodup_nil, List.nodup_nil⟩

theorem Alike.distinct_own' (h : n.Alike n') : n'.own.Distinct :=
  (h.own_perm.map Definition.named).nodup_iff.mpr h.distinct_own

theorem Alike.lookup?_eq (h : n.Alike n') (k : Keyword) (name : Text) :
    n'.lookup? k name = n.lookup? k name := by
  rw [lookup?_eq_or, lookup?_eq_or, h.external_eq, Scope.get?_of_perm h.distinct_own h.own_perm]

theorem ImportsAlike.importing (h : n.ImportsAlike n') (hm : m.Alike m') (ref : Text) :
    (n.importing ref m).ImportsAlike (n'.importing ref m') where
  path_eq := h.path_eq
  name_eq := h.name_eq
  imports_eq := by
    unfold Namespace.importing
    rw [h.imports_eq]
  external_eq := by
    intro k name
    rw [external_importing n ref hm.distinct_own hm.distinct_external,
      external_importing n' ref hm.distinct_own' hm.distinct_external', hm.lookup?_eq,
      h.external_eq]
  distinct_external := (h.distinct_external.update _).update _
  distinct_external' := (h.distinct_external'.update _).update _

/-- The scope of a document itself. -/
def scopeOf (path : Text) (d : Document) : Scope :=
  ⟨d.definitions.map (Load.definition (blank path))⟩

theorem distinct_scopeOf {d : Document} (h : d.IsKeyed) (path : Text) :
    (scopeOf path d).Distinct := by
  unfold Scope.Distinct scopeOf
  rw [List.map_map]
  exact h.nodup_key

theorem names_scopeOf (path : Text) (d : Document) (k : Keyword) :
    (scopeOf path d).names k = d.names k := by
  unfold Scope.names Scope.ofKind scopeOf Document.names
  rw [List.filter_map, List.map_map]
  congr 1

/-- Whether a namespace has the definitions of the document at its path. -/
structure IsOf (documents : Documents) (n : Namespace) : Prop where
  name_eq : n.name = Source.schemaName n.path
  own_eq : ∃ d, documents n.path = .ok d ∧ n.own = scopeOf n.path d

theorem IsOf.declares {documents : Documents} (h : n.IsOf documents)
    (hkeyed : ∀ path d, documents path = .ok d → d.IsKeyed) : n.Declares := by
  obtain ⟨hname, d, hd, hown⟩ := h
  have hdefined : ∀ x ∈ n.own.definitions, ∃ e ∈ d.definitions,
      x = Load.definition (blank n.path) e := by
    intro x hx
    rw [hown] at hx
    obtain ⟨e, he, rfl⟩ := List.mem_map.mp hx
    exact ⟨e, he, rfl⟩
  refine ⟨hname, hown ▸ distinct_scopeOf (hkeyed _ _ hd) _, ?_, ?_, ?_⟩
  · intro x hx
    obtain ⟨e, _, rfl⟩ := hdefined x hx
    rfl
  · intro x hx
    obtain ⟨e, _, rfl⟩ := hdefined x hx
    exact hname.symm
  · intro x hx
    obtain ⟨e, he, rfl⟩ := hdefined x hx
    exact (hkeyed _ _ hd).isIdentifier e he

end Namespace

/-- Whether an import can be read, or the body of a definition has the shape of its kind. -/
def Entry.isWellShaped (path : Text) (e : Entry) : Bool :=
  if e.key.keyword = .imports then (e.imports path).isOk else Load.hasShape e

namespace Load

variable {load load' : Text → Load Namespace} {n n' m : Namespace} {s s' t : Loading}

theorem importAll_append (refs more : List Text) :
    importAll load (refs ++ more) n = importAll load refs n >>= importAll load more := by
  induction refs generalizing n with
  | nil => rfl
  | cons ref rest ih =>
      rw [List.cons_append]
      funext s
      by_cases hc : n.imports.contains ref = true
      · rw [importAll, importAll, if_pos hc, if_pos hc, ih]
      · change (importAll load (ref :: (rest ++ more)) n).run s =
          (importAll load (ref :: rest) n >>= importAll load more).run s
        rw [run_importAll_cons hc, run_bind, run_importAll_cons hc]
        rcases (load (Source.resolve n.path ref)).run s with ⟨e | imported, s₁⟩
        · rfl
        · simp only [ih, run_bind]

/-- Imports do not look at what a document defines itself. -/
theorem importAll_own {refs : List Text} (o : Scope)
    (h : (importAll load refs n).run s = (.ok m, t)) :
    m.own = n.own ∧ m.path = n.path ∧ m.name = n.name ∧
      (importAll load refs { n with own := o }).run s = (.ok { m with own := o }, t) := by
  induction refs generalizing n s with
  | nil =>
      cases h
      exact ⟨rfl, rfl, rfl, rfl⟩
  | cons ref rest ih =>
      by_cases hc : n.imports.contains ref = true
      · rw [importAll, if_pos hc] at h
        rw [importAll, if_pos hc]
        exact ih h
      · obtain ⟨imported, s₁, hload, h⟩ := (importAll_cons_eq_ok_iff hc).mp h
        obtain ⟨hown, hpath, hname, hrun⟩ := ih (n := n.importing ref imported) h
        refine ⟨hown, hpath, hname, ?_⟩
        exact (importAll_cons_eq_ok_iff (n := { n with own := o }) hc).mpr
          ⟨imported, s₁, hload, hrun⟩

theorem definition_congr (hpath : n'.path = n.path) (hname : n'.name = n.name) :
    definition n' = definition n := by
  funext e
  simp only [definition, hpath, hname]

/-- Taking in entries is taking in their imports, and apart from that their definitions. -/
theorem entries_eq_ok_iff {es : List Entry} :
    (entries load es n).run s = (.ok m, t) ↔
      (∀ e ∈ es, e.isWellShaped n.path = true) ∧
        ∃ m₁, (importAll load (es.flatMap (Entry.references n.path)) n).run s = (.ok m₁, t) ∧
          m = { m₁ with
            own := ((es.filter fun e => e.key.keyword ≠ .imports).map (definition n)).foldl
              Scope.set n.own } := by
  -- Imports do not look at what has been defined, nor definitions at what has been imported, so
  -- that the two can be taken apart at every entry.
  induction es generalizing n s with
  | nil =>
      constructor
      · intro h
        cases h
        exact ⟨by simp, _, rfl, rfl⟩
      · rintro ⟨_, m₁, h, rfl⟩
        cases h
        rfl
  | cons e rest ih =>
      rw [entries_cons, List.forall_mem_cons, List.flatMap_cons]
      by_cases hk : e.key.keyword = .imports
      · rw [if_pos hk, List.filter_cons_of_neg (by simpa using hk), importAll_append]
        cases himports : e.imports n.path with
        | error cause =>
            constructor
            · intro h
              cases h
            · rintro ⟨⟨hshape, _⟩, _⟩
              simp [Entry.isWellShaped, hk, himports, Except.isOk, Except.toBool] at hshape
        | ok refs =>
            have hshape : e.isWellShaped n.path = true := by
              simp [Entry.isWellShaped, hk, himports, Except.isOk, Except.toBool]
            rw [Entry.references_eq hk himports]
            constructor
            · intro h
              obtain ⟨n₁, s₁, hn₁, h⟩ := run_bind_eq_ok_iff.mp h
              obtain ⟨hown, hpath, hname, _⟩ := importAll_own n.own hn₁
              obtain ⟨hall, m₁, hm₁, rfl⟩ := ih.mp h
              rw [hpath] at hall hm₁
              rw [hown, definition_congr hpath hname]
              exact ⟨⟨hshape, hall⟩, m₁, run_bind_eq_ok_iff.mpr ⟨n₁, s₁, hn₁, hm₁⟩, rfl⟩
            · rintro ⟨⟨_, hall⟩, m₁, hm₁, rfl⟩
              obtain ⟨n₁, s₁, hn₁, hm₁⟩ := run_bind_eq_ok_iff.mp hm₁
              obtain ⟨hown, hpath, hname, _⟩ := importAll_own n.own hn₁
              refine run_bind_eq_ok_iff.mpr ⟨n₁, s₁, hn₁, ih.mpr ?_⟩
              rw [hown, hpath, definition_congr hpath hname]
              exact ⟨hall, m₁, hm₁, rfl⟩
      · have hreferences : e.references n.path = [] := by rw [Entry.references, if_neg hk]
        rw [if_neg hk, List.filter_cons_of_pos (by simpa using hk), hreferences, List.nil_append,
          List.map_cons, List.foldl_cons]
        by_cases hshape : hasShape e = true
        · have hwell : e.isWellShaped n.path = true := by rw [Entry.isWellShaped, if_neg hk, hshape]
          rw [if_pos hshape]
          constructor
          · intro h
            obtain ⟨hall, m₁, hm₁, rfl⟩ := ih.mp h
            obtain ⟨_, _, _, hrun⟩ := importAll_own n.own hm₁
            exact ⟨⟨hwell, hall⟩, { m₁ with own := n.own }, hrun, rfl⟩
          · rintro ⟨⟨_, hall⟩, m₁, hm₁, rfl⟩
            obtain ⟨_, _, _, hrun⟩ := importAll_own (n.defining e).own hm₁
            exact ih.mpr ⟨hall, { m₁ with own := (n.defining e).own }, hrun, rfl⟩
        · rw [if_neg hshape]
          constructor
          · intro h
            cases h
          · rintro ⟨⟨hwell, _⟩, _⟩
            rw [Entry.isWellShaped, if_neg hk] at hwell
            exact absurd hwell hshape

/-- The namespace of a keyed document has its definitions in document order. -/
theorem entries_blank_eq_ok_iff {d : Document} (hd : d.IsKeyed) {path : Text} :
    (entries load d.entries (blank path)).run s = (.ok m, t) ↔
      (∀ e ∈ d.entries, e.isWellShaped path = true) ∧
        ∃ m₁, (importAll load (d.entries.flatMap (Entry.references path)) (blank path)).run s =
          (.ok m₁, t) ∧ m = { m₁ with own := scopeOf path d } := by
  have hscope : (d.definitions.map (definition (blank path))).foldl Scope.set (blank path).own =
      scopeOf path d := by
    rw [Scope.foldl_set_eq]
    · rfl
    · exact distinct_scopeOf hd path
  rw [entries_eq_ok_iff]
  exact iff_of_eq (by rw [← hscope]; rfl)

section Simulation

variable {documents documents' : Documents}

/-- Whether each successful call of one loader is matched by a call of the other, after which again
the same documents are loaded. -/
def Simulates (load load' : Text → Load Namespace) : Prop :=
  ∀ path s s' n t, List.Forall₂ Alike s.done s'.done → (load path).run s = (.ok n, t) →
    ∃ n' t', (load' path).run s' = (.ok n', t') ∧ n.Alike n' ∧ List.Forall₂ Alike t.done t'.done

theorem importAll_simulates (hload : Simulates load load') {refs : List Text}
    (hn : n.ImportsAlike n') (hs : List.Forall₂ Alike s.done s'.done)
    (h : (importAll load refs n).run s = (.ok m, t)) :
    ∃ m' t', (importAll load' refs n').run s' = (.ok m', t') ∧ m.ImportsAlike m' ∧
      List.Forall₂ Alike t.done t'.done := by
  induction refs generalizing n n' s s' with
  | nil =>
      cases h
      exact ⟨n', s', rfl, hn, hs⟩
  | cons ref rest ih =>
      by_cases hc : n.imports.contains ref = true
      · rw [importAll, if_pos hc] at h
        rw [importAll, if_pos (by rw [hn.imports_eq]; exact hc)]
        exact ih hn hs h
      · have hc' : ¬ n'.imports.contains ref = true := by rwa [hn.imports_eq]
        obtain ⟨imported, s₁, hrun, h⟩ := (importAll_cons_eq_ok_iff hc).mp h
        obtain ⟨imported', s₁', hrun', halike, hs₁⟩ := hload _ s s' imported s₁ hs hrun
        obtain ⟨m', t', hm', hm, ht⟩ := ih (hn.importing halike ref) hs₁ h
        rw [← hn.path_eq] at hrun'
        exact ⟨m', t', (importAll_cons_eq_ok_iff hc').mpr ⟨imported', s₁', hrun', hm'⟩, hm, ht⟩

theorem references_of_rearranges {d d' : Document} (h : d.Rearranges d') (path : Text) :
    d'.entries.flatMap (Entry.references path) = d.entries.flatMap (Entry.references path) := by
  have hfilter : ∀ es : List Entry, es.flatMap (Entry.references path) =
      (es.filter fun e => e.key.keyword = .imports).flatMap (Entry.references path) := by
    intro es
    induction es with
    | nil => rfl
    | cons e rest ih =>
        by_cases hk : e.key.keyword = .imports
        · rw [List.filter_cons_of_pos (by simpa using hk), List.flatMap_cons, List.flatMap_cons, ih]
        · rw [List.filter_cons_of_neg (by simpa using hk), List.flatMap_cons, ih, Entry.references,
            if_neg hk, List.nil_append]
  rw [hfilter, h.imports_eq, ← hfilter]

theorem entries_simulates (hload : Simulates load load') {d d' : Document} (hd : d.Rearranges d')
    {path : Text} (hs : List.Forall₂ Alike s.done s'.done)
    (h : (entries load d.entries (blank path)).run s = (.ok m, t)) :
    ∃ m' t', (entries load' d'.entries (blank path)).run s' = (.ok m', t') ∧ m.Alike m' ∧
      List.Forall₂ Alike t.done t'.done := by
  obtain ⟨hall, m₁, hm₁, rfl⟩ := (entries_blank_eq_ok_iff hd.isKeyed).mp h
  obtain ⟨m₁', t', hm₁', halike, ht⟩ :=
    importAll_simulates hload (ImportsAlike.refl_blank path) hs hm₁
  rw [← references_of_rearranges hd] at hm₁'
  have hall' : ∀ e ∈ d'.entries, e.isWellShaped path = true :=
    fun e he => hall e (hd.perm.mem_iff.mp he)
  refine ⟨{ m₁' with own := scopeOf path d' }, t',
    (entries_blank_eq_ok_iff hd.symm.isKeyed).mpr ⟨hall', m₁', hm₁', rfl⟩, ?_, ht⟩
  exact
    { path_eq := halike.path_eq
      name_eq := halike.name_eq
      imports_eq := halike.imports_eq
      external_eq := halike.external_eq
      distinct_external := halike.distinct_external
      distinct_external' := halike.distinct_external'
      own_perm := hd.definitions_perm.map _
      distinct_own := distinct_scopeOf hd.isKeyed path }

theorem documentIn_of_found {depth : Nat} {opened : List Text} {path : Text}
    (hf : findIn s.done path = some n) :
    (documentIn documents (depth + 1) opened path).run s = (.ok n, s) := by
  rw [documentIn, visitIn, run_get_bind]
  rw [findIn] at hf
  rw [hf]
  rfl

/-- A document that is not loaded yet is taken in entry by entry. -/
theorem documentIn_eq_ok_iff_of_new {depth : Nat} {opened : List Text} {path : Text}
    (hf : findIn s.done path = none) :
    (documentIn documents (depth + 1) opened path).run s = (.ok n, t) ↔
      path ∉ opened ∧ ∃ d s₁, documents path = .ok d ∧
        (entries (documentIn documents depth (opened ++ [path])) d.entries (blank path)).run
          { s with tried := s.tried ++ [path] } = (.ok n, s₁) ∧ t = finished path n s₁ := by
  rw [documentIn, visitIn, run_get_bind]
  rw [findIn] at hf
  rw [hf]
  constructor
  · intro h
    simp only at h
    split at h
    · cases h
    · next hc =>
        rw [run_modify_bind] at h
        split at h
        · cases h
        · next d hd =>
            obtain ⟨n₁, s₁, hentries, h⟩ := run_bind_eq_ok_iff.mp h
            obtain ⟨_, s₂, hreport, h⟩ := run_bind_eq_ok_iff.mp h
            rw [run_forM_report] at hreport
            cases hreport
            cases h
            exact ⟨by simpa using hc, d, s₁, hd, hentries, rfl⟩
  · rintro ⟨hno, d, s₁, hd, hentries, rfl⟩
    have hc : ¬ opened.contains path = true := by simpa using hno
    simp only [if_neg hc, run_modify_bind, hd]
    refine run_bind_eq_ok_iff.mpr ⟨n, s₁, hentries, ?_⟩
    exact run_bind_eq_ok_iff.mpr ⟨⟨⟩, _, run_forM_report _, rfl⟩

theorem findIn_of_forall₂ {done done' : List Namespace} (h : List.Forall₂ Alike done done')
    (path : Text) : Option.Rel Alike (findIn done path) (findIn done' path) := by
  unfold findIn
  induction h with
  | nil => exact .none
  | @cons n n' done done' hn _ ih =>
      rw [List.find?_cons, List.find?_cons, hn.path_eq]
      cases n.path == path with
      | true => exact .some hn
      | false => exact ih

/-- Each document that is loaded is loaded from the rearranged documents too. -/
theorem documentIn_simulates (h : ∀ path, Rearranged (documents path) (documents' path))
    (depth : Nat) (opened : List Text) :
    Simulates (documentIn documents depth opened) (documentIn documents' depth opened) := by
  induction depth generalizing opened with
  | zero =>
      intro path s s' n t _ hrun
      cases hrun
  | succ depth ih =>
      intro path s s' n t hs hrun
      have hfound := findIn_of_forall₂ hs path
      cases hf : findIn s.done path with
      | some m =>
          rw [documentIn_of_found hf] at hrun
          cases hrun
          rw [hf] at hfound
          cases hf' : findIn s'.done path with
          | none =>
              rw [hf'] at hfound
              cases hfound
          | some n' =>
              rw [hf'] at hfound
              cases hfound with
              | some halike => exact ⟨n', s', documentIn_of_found hf', halike, hs⟩
      | none =>
          rw [hf] at hfound
          have hf' : findIn s'.done path = none := by
            cases hf' : findIn s'.done path with
            | none => rfl
            | some n' =>
                rw [hf'] at hfound
                cases hfound
          obtain ⟨hno, d, s₁, hd, hentries, rfl⟩ := (documentIn_eq_ok_iff_of_new hf).mp hrun
          have hat := h path
          rw [hd] at hat
          generalize hd' : documents' path = other at hat
          cases hat with
          | document hrearranges =>
              have htried :
                  List.Forall₂ Alike ({ s with tried := s.tried ++ [path] } : Loading).done
                    ({ s' with tried := s'.tried ++ [path] } : Loading).done := hs
              obtain ⟨n', s₁', hentries', halike, hs₁⟩ :=
                entries_simulates (ih (opened ++ [path])) hrearranges htried hentries
              refine ⟨n', finished path n' s₁', ?_, halike, ?_⟩
              · exact (documentIn_eq_ok_iff_of_new hf').mpr ⟨hno, _, s₁', hd', hentries', rfl⟩
              · exact List.rel_append hs₁ (.cons halike .nil)

end Simulation

section Registration

variable {documents : Documents} {opened : List Text}

/-- Whether namespaces are those of different documents. -/
structure AreOf (documents : Documents) (done : List Namespace) : Prop where
  nodup_path : (done.map Namespace.path).Nodup
  isOf : ∀ n ∈ done, n.IsOf documents

/-- Whether a run adds only namespaces of documents that are not being loaded. -/
def Enlarges (opened : List Text) (s t : Loading) : Prop :=
  ∃ more, t.done = s.done ++ more ∧ ∀ m ∈ more, m.path ∉ opened

theorem Enlarges.refl (opened : List Text) (s : Loading) : Enlarges opened s s :=
  ⟨[], by simp, by simp⟩

theorem Enlarges.trans {s₁ : Loading} (h : Enlarges opened s s₁) (h' : Enlarges opened s₁ t) :
    Enlarges opened s t := by
  obtain ⟨more, hmore, hnew⟩ := h
  obtain ⟨more', hmore', hnew'⟩ := h'
  refine ⟨more ++ more', by rw [hmore', hmore, List.append_assoc], ?_⟩
  intro m hm
  rcases List.mem_append.mp hm with hm | hm
  · exact hnew m hm
  · exact hnew' m hm

/-- Whether each successful call gives the namespace of its path and adds what it has loaded. -/
def Registers (documents : Documents) (opened : List Text) (load : Text → Load Namespace) : Prop :=
  ∀ path s n t, AreOf documents s.done → (load path).run s = (.ok n, t) →
    AreOf documents t.done ∧ Enlarges opened s t ∧ n ∈ t.done ∧ n.path = path

theorem importAll_registers (hload : Registers documents opened load) {refs : List Text}
    (hs : AreOf documents s.done) (h : (importAll load refs n).run s = (.ok m, t)) :
    AreOf documents t.done ∧ Enlarges opened s t := by
  induction refs generalizing n s with
  | nil =>
      cases h
      exact ⟨hs, .refl opened _⟩
  | cons ref rest ih =>
      by_cases hc : n.imports.contains ref = true
      · rw [importAll, if_pos hc] at h
        exact ih hs h
      · obtain ⟨imported, s₁, hrun, h⟩ := (importAll_cons_eq_ok_iff hc).mp h
        obtain ⟨hs₁, henlarges, _, _⟩ := hload _ s imported s₁ hs hrun
        obtain ⟨ht, henlarges'⟩ := ih hs₁ h
        exact ⟨ht, henlarges.trans henlarges'⟩

/-- A run of the loader gives the namespace of its path; a path that is open below it is never
added. -/
theorem documentIn_registers (hkeyed : ∀ path d, documents path = .ok d → d.IsKeyed) (depth : Nat)
    (opened : List Text) : Registers documents opened (documentIn documents depth opened) := by
  induction depth generalizing opened with
  | zero =>
      intro path s n t _ hrun
      cases hrun
  | succ depth ih =>
      intro path s n t hs hrun
      cases hf : findIn s.done path with
      | some m =>
          rw [documentIn_of_found hf] at hrun
          cases hrun
          obtain ⟨hmem, hpath⟩ := mem_of_findIn hf
          exact ⟨hs, .refl opened s, hmem, hpath⟩
      | none =>
          obtain ⟨hno, d, s₁, hd, hentries, rfl⟩ := (documentIn_eq_ok_iff_of_new hf).mp hrun
          obtain ⟨_, m, hm, hn⟩ := (entries_blank_eq_ok_iff (hkeyed path d hd)).mp hentries
          obtain ⟨_, hmpath, hmname, _⟩ := importAll_own {} hm
          have hpath : n.path = path := by rw [hn, hmpath, blank]
          have hisOf : n.IsOf documents := by
            refine ⟨?_, d, hpath ▸ hd, ?_⟩
            · rw [hpath, hn, hmname, blank]
            · rw [hpath, hn]
          -- Below the document its own path is open as well, so that no reference adds it first.
          obtain ⟨hs₁, more, hmore, hnew⟩ := importAll_registers
            (s := { s with tried := s.tried ++ [path] }) (ih (opened ++ [path])) hs hm
          have hfresh : path ∉ s₁.done.map Namespace.path := by
            rw [hmore, List.map_append, List.mem_append]
            rintro (hmem | hmem)
            · exact findIn_eq_none_iff.mp hf hmem
            · obtain ⟨x, hx, rfl⟩ := List.mem_map.mp hmem
              exact hnew x hx (List.mem_append_right _ List.mem_cons_self)
          refine ⟨⟨?_, ?_⟩, ⟨more ++ [n], ?_, ?_⟩, List.mem_append_right _ List.mem_cons_self,
            hpath⟩
          · rw [finished, List.map_append]
            refine hs₁.nodup_path.append (List.nodup_singleton _) ?_
            intro x hx hlast
            rw [List.mem_singleton.mp hlast, hpath] at hx
            exact hfresh hx
          · intro x hx
            rcases List.mem_append.mp hx with hx | hx
            · exact hs₁.isOf x hx
            · exact List.mem_singleton.mp hx ▸ hisOf
          · rw [finished, hmore, List.append_assoc]
          · intro x hx
            rcases List.mem_append.mp hx with hx | hx
            · exact fun hopen => hnew x hx (List.mem_append_left _ hopen)
            · rw [List.mem_singleton.mp hx, hpath]
              exact hno

end Registration

end Load

namespace Program

variable {documents documents' : Documents} {depth : Nat} {root : Text} {p : Program}

/-- What a program consists of that has been loaded from documents. -/
structure LoadedIn (documents : Documents) (root : Text) (p : Program) : Prop where
  isLocated : p.IsLocated
  root_mem : p.root ∈ p.namespaces
  root_path : p.root.path = root
  isOf : ∀ n ∈ p.namespaces, n.IsOf documents

theorem loadedIn_of_loadIn (hkeyed : ∀ path d, documents path = .ok d → d.IsKeyed)
    (h : (loadIn documents depth root).1 = .ok p) : LoadedIn documents root p := by
  obtain ⟨s, hrun, hdone⟩ := loadIn_eq_ok_iff.mp h
  obtain ⟨hs, _, hmem, hpath⟩ :=
    Load.documentIn_registers hkeyed depth [] root {} p.root s ⟨List.nodup_nil, by simp⟩ hrun
  rw [← hdone] at hs hmem
  exact ⟨⟨hs.nodup_path, fun n hn => (hs.isOf n hn).declares hkeyed⟩, hmem, hpath, hs.isOf⟩

theorem loadedIn_of_load {source : Source} (h : (load source root).1 = .ok p) :
    p.LoadedIn source.documents root := by
  rw [load_eq_loadIn] at h
  exact loadedIn_of_loadIn (fun _ _ => Source.isKeyed_of_documents) h

/-- Whether two programs have the same documents in the same order and find the same in them. -/
structure Alike (p p' : Program) : Prop where
  root : p.root.Alike p'.root
  namespaces : List.Forall₂ Namespace.Alike p.namespaces p'.namespaces

/-- A program is loaded from rearranged documents too, and nothing else is found in it. -/
theorem exists_alike_of_loadIn (hdocuments : ∀ path, Rearranged (documents path) (documents' path))
    (h : (loadIn documents depth root).1 = .ok p) :
    ∃ p', (loadIn documents' depth root).1 = .ok p' ∧ p.Alike p' := by
  obtain ⟨s, hrun, hdone⟩ := loadIn_eq_ok_iff.mp h
  obtain ⟨n', s', hrun', hroot, hs⟩ :=
    Load.documentIn_simulates hdocuments depth [] root {} {} p.root s .nil hrun
  exact ⟨⟨n', s'.done⟩, loadIn_eq_ok_iff.mpr ⟨s', hrun', rfl⟩, hroot, hdone ▸ hs⟩

end Program

end RecordSchema
