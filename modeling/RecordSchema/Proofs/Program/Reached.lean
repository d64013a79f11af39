import RecordSchema.Proofs.Program.Imports
import RecordSchema.Proofs.Program.Load
import RecordSchema.Store.Library

/-!
# What is loaded and read

A successful run adds the namespaces of documents that can be reached from its path, and tries just
their paths: its own first, while its namespace comes last. From a library every document that can
be reached is thus read once, and no other.
-/

namespace RecordSchema

open Text Namespace Relation

namespace Load

variable {source : Source} {s s₁ s' : Loading} {path other : Text}

/-- What a successful run adds behind a path: namespaces that can be reached, and their paths in
some order. -/
structure Adds (source : Source) (path : Text) (s s' : Loading) (more : List Namespace)
    (tried : List Text) : Prop where
  done_eq : s'.done = s.done ++ more
  tried_eq : s'.tried = s.tried ++ tried
  perm : tried.Perm (more.map Namespace.path)
  reachable : ∀ m ∈ more, ReflTransGen source.Imports path m.path

theorem Adds.refl (source : Source) (path : Text) (s : Loading) : Adds source path s s [] [] :=
  ⟨(List.append_nil _).symm, (List.append_nil _).symm, .nil, fun _ hm => absurd hm List.not_mem_nil⟩

theorem Adds.trans {more more' : List Namespace} {tried tried' : List Text}
    (h : Adds source path s s₁ more tried) (h' : Adds source path s₁ s' more' tried') :
    Adds source path s s' (more ++ more') (tried ++ tried') := by
  refine ⟨?_, ?_, ?_, ?_⟩
  · rw [h'.done_eq, h.done_eq, List.append_assoc]
  · rw [h'.tried_eq, h.tried_eq, List.append_assoc]
  · rw [List.map_append]
    exact h.perm.append h'.perm
  · intro m hm
    rcases List.mem_append.mp hm with hm | hm
    · exact h.reachable m hm
    · exact h'.reachable m hm

theorem Adds.of_imports {more : List Namespace} {tried : List Text}
    (hi : source.Imports path other) (h : Adds source other s s' more tried) :
    Adds source path s s' more tried :=
  ⟨h.done_eq, h.tried_eq, h.perm, fun m hm => .head hi (h.reachable m hm)⟩

section Steps

variable {load : Text → Load Namespace} {n n' : Namespace} {R : Loading → Loading → Prop}

/-- A run of imports stands in a relation that all its calls stand in. -/
theorem importAll_rel (hrefl : ∀ s, R s s) (htrans : ∀ a b c, R a b → R b c → R a c)
    {refs : List Text}
    (hload : ∀ ref ∈ refs, ∀ t t' m, (load (Source.resolve n.path ref)).run t = (.ok m, t') →
      R t t')
    (h : (importAll load refs n).run s = (.ok n', s')) : R s s' := by
  induction refs generalizing n s with
  | nil =>
      cases h
      exact hrefl _
  | cons ref rest ih =>
      obtain ⟨href, hrest⟩ := List.forall_mem_cons.mp hload
      by_cases hc : n.imports.contains ref = true
      · rw [importAll, if_pos hc] at h
        exact ih hrest h
      · obtain ⟨m, s₁, hm, h⟩ := (importAll_cons_eq_ok_iff hc).mp h
        exact htrans _ _ _ (href s s₁ m hm) (ih (n := n.importing ref m) hrest h)

theorem entries_rel (hrefl : ∀ s, R s s) (htrans : ∀ a b c, R a b → R b c → R a c)
    {es : List Entry}
    (hload : ∀ x ∈ es, ∀ ref ∈ x.references n.path, ∀ t t' m,
      (load (Source.resolve n.path ref)).run t = (.ok m, t') → R t t')
    (h : (entries load es n).run s = (.ok n', s')) : R s s' := by
  induction es generalizing n s with
  | nil =>
      cases h
      exact hrefl _
  | cons x rest ih =>
      obtain ⟨hx, hrest⟩ := List.forall_mem_cons.mp hload
      rw [entries_cons] at h
      split at h
      · next hk =>
          split at h
          · cases h
          · next refs hrefs =>
              rw [Entry.references_eq hk hrefs] at hx
              obtain ⟨n₁, s₁, hn₁, h⟩ := run_bind_eq_ok_iff.mp h
              rw [← path_of_importAll hn₁] at hrest
              exact htrans _ _ _ (importAll_rel hrefl htrans hx hn₁) (ih hrest h)
      · split at h
        · exact ih (n := n.defining x) hrest h
        · cases h

end Steps

/-- A new document is tried before those it imports and done after them. -/
theorem document_adds {depth : Nat} {opened : List Text} {n : Namespace}
    (h : (document source depth opened path).run s = (.ok n, s')) :
    (∃ more tried, Adds source path s s' more tried) ∧
      (findIn s.done path = none →
        ∃ more tried, Adds source path s s' (more ++ [n]) (path :: tried)) := by
  induction depth generalizing opened path s s' n with
  | zero => cases h
  | succ depth ih =>
      cases hf : findIn s.done path with
      | some m =>
          rw [document_of_found hf] at h
          cases h
          exact ⟨⟨[], [], .refl source path s⟩, fun hnone => by cases hnone⟩
      | none =>
          obtain ⟨_, text, d, s₁, hread, hparse, hentries, rfl⟩ :=
            (document_eq_ok_iff_of_new hf).mp h
          have hn : n.path = path := path_of_entries hentries
          have hd := Source.document?_eq_some_iff.mpr ⟨text, hread, hparse⟩
          obtain ⟨more, tried, hadds⟩ : ∃ more tried,
              Adds source path { s with tried := s.tried ++ [path] } s₁ more tried := by
            apply entries_rel
              (R := fun t t' => ∃ more tried, Adds source path t t' more tried) ?_ ?_ ?_
              hentries
            · exact fun t => ⟨[], [], .refl source path t⟩
            · rintro a b c ⟨more, tried, hab⟩ ⟨more', tried', hbc⟩
              exact ⟨_, _, hab.trans hbc⟩
            · intro x hx ref href t t' m hm
              obtain ⟨more, tried, hadds⟩ := (ih hm).1
              exact ⟨more, tried, hadds.of_imports (Source.imports_of_mem hd hx href)⟩
          have hnew : Adds source path s (finished path n s₁) (more ++ [n]) (path :: tried) := by
            refine ⟨?_, ?_, ?_, ?_⟩
            · rw [finished, hadds.done_eq, List.append_assoc]
            · rw [finished, hadds.tried_eq, List.append_assoc]
              rfl
            · rw [List.map_append, List.map_singleton, hn]
              exact (hadds.perm.cons path).trans (List.perm_append_singleton _ _).symm
            · intro m hm
              rcases List.mem_append.mp hm with hm | hm
              · exact hadds.reachable m hm
              · rw [List.mem_singleton.mp hm, hn]
          exact ⟨⟨_, _, hnew⟩, fun _ => ⟨more, tried, hnew⟩⟩

end Load

namespace Library

variable (l : Library)

/-- The library after a path has been read. -/
def countRead (l : Library) (path : Text) : Library := l.countReads [path]

theorem countReads_cons (path : Text) (paths : List Text) :
    l.countReads (path :: paths) = (l.countRead path).countReads paths := rfl

theorem get?_countRead (path other : Text) : (l.countRead path).get? other = l.get? other := by
  simp only [countRead, countReads, List.foldl_cons, List.foldl_nil]
  split
  · rfl
  · rfl

theorem readCount_countRead (path other : Text) :
    (l.countRead path).readCount other = l.readCount other +
      if Path.clean path = Path.clean other ∧ (l.get? path).isSome then 1 else 0 := by
  simp only [countRead, countReads, List.foldl_cons, List.foldl_nil]
  by_cases hsome : (l.get? path).isSome = true
  · rw [if_pos hsome]
    unfold readCount
    by_cases hclean : Path.clean path = Path.clean other
    · rw [if_pos ⟨hclean, hsome⟩, ← hclean, Keyed.lookup_set_self, Option.getD_some]
    · rw [if_neg fun h => hclean h.1, Keyed.lookup_set_of_ne (Ne.symm hclean), Nat.add_zero]
  · rw [if_neg hsome, if_neg fun h => hsome h.2, Nat.add_zero]

theorem isSome_of_read {path text : Text} (h : l.source.read path = .ok text) :
    (l.get? path).isSome := by
  simp only [source] at h
  split at h
  · next heq => rw [heq, Option.isSome_some]
  · cases h

/-- A document is counted as often as its path, in any spelling, is read. -/
theorem readCount_countReads (paths : List Text) (other : Text) :
    (l.countReads paths).readCount other = l.readCount other +
      paths.countP fun path => Path.clean path = Path.clean other ∧ (l.get? path).isSome := by
  induction paths generalizing l with
  | nil => rfl
  | cons path rest ih =>
      rw [countReads_cons, ih, readCount_countRead, List.countP_cons]
      simp only [get?_countRead, decide_eq_true_eq]
      omega

theorem readCount_countReads_of_nodup {paths : List Text} (hnodup : paths.Nodup)
    (hpaths : ∀ path ∈ paths, Path.clean path = path ∧ (l.get? path).isSome) (other : Text) :
    (l.countReads paths).readCount other =
      l.readCount other + if Path.clean other ∈ paths then 1 else 0 := by
  rw [readCount_countReads, ← hnodup.count, List.count]
  congr 1
  refine List.countP_congr fun path hpath => ?_
  obtain ⟨hclean, hsome⟩ := hpaths path hpath
  simp [hclean, hsome]

end Library

namespace Program

/-- What is loaded and read for a root document: the documents that can be reached from it, each
once and after those it imports. -/
structure Traverses (l : Library) (root : Text) (p : Program) (s : Loading) : Prop where
  mem_iff : ∀ path, path ∈ p.namespaces.map Namespace.path ↔ ReflTransGen l.source.Imports root path
  nodup : (p.namespaces.map Namespace.path).Nodup
  /-- Different paths stand for different documents. -/
  clean : ∀ path ∈ p.namespaces.map Namespace.path, Path.clean path = path ∧ (l.get? path).isSome
  imports_before : ∀ before n after, p.namespaces = before ++ n :: after →
    ∀ other, l.source.Imports n.path other → other ∈ before.map Namespace.path
  root_last : p.namespaces.getLast? = some p.root ∧ p.root.path = root
  readCount_eq : ∀ path, (l.countReads s.tried).readCount path =
    l.readCount path + if Path.clean path ∈ p.namespaces.map Namespace.path then 1 else 0
  tried_nodup : s.tried.Nodup
  tried_perm : s.tried.Perm (p.namespaces.map Namespace.path)
  tried_head : s.tried.head? = some root

theorem LoadedFrom.clean {l : Library} {root : Text} {p : Program} (h : LoadedFrom l.source root p)
    (hroot : Path.clean root = root) {path : Text}
    (hpath : path ∈ p.namespaces.map Namespace.path) :
    Path.clean path = path ∧ (l.get? path).isSome := by
  obtain ⟨n, hn, rfl⟩ := List.mem_map.mp hpath
  constructor
  · rcases h.path n hn with heq | ⟨document, reference, heq⟩
    · rw [heq, hroot]
    · rw [heq, Source.clean_resolve]
  · obtain ⟨text, _, hread, _⟩ :=
      Source.namespaceAt?_eq_some_iff.mp (h.loaded.namespaceAt?_eq_some hn)
    exact l.isSome_of_read hread

/-- A root with a clean path is loaded from a library with all documents that can be reached from
it and with no others, in import order; each of them is read once. -/
theorem traverses_of_load (l : Library) {root : Text} (hroot : Path.clean root = root) {p : Program}
    {s : Loading} (h : load l.source root = (.ok p, s)) : p.Traverses l root s := by
  obtain ⟨hrun, hdone⟩ := load_eq_iff.mp h
  obtain ⟨more, tried, hadds⟩ := (Load.document_adds hrun).2 rfl
  have hnamespaces : p.namespaces = more ++ [p.root] := hdone.trans hadds.done_eq
  have htried : s.tried = root :: tried := hadds.tried_eq
  have hfrom := loadedFrom_of_load (congrArg Prod.fst h)
  have hnodup := hfrom.loaded.nodup_path
  have hclean : ∀ path ∈ p.namespaces.map Namespace.path,
      Path.clean path = path ∧ (l.get? path).isSome := fun _ => hfrom.clean hroot
  have hperm : s.tried.Perm (p.namespaces.map Namespace.path) := by
    rw [htried, hnamespaces]
    exact hadds.perm
  have htriedNodup := hperm.nodup_iff.mpr hnodup
  refine ⟨?_, hnodup, hclean, ?_, ⟨?_, hfrom.root_path⟩, ?_, htriedNodup, hperm, ?_⟩
  · intro path
    constructor
    · intro hpath
      obtain ⟨n, hn, rfl⟩ := List.mem_map.mp hpath
      exact hadds.reachable n (hnamespaces ▸ hn)
    · exact hfrom.loaded.mem_of_reachable
        (List.mem_map.mpr ⟨p.root, hfrom.root_mem, hfrom.root_path⟩)
  · intro before n after heq other hi
    have hloaded := hfrom.loaded
    rw [heq] at hloaded
    exact hloaded.mem_before_of_imports hi
  · rw [hnamespaces, List.getLast?_concat]
  · intro path
    have hread := l.readCount_countReads_of_nodup htriedNodup
      (fun other hother => hclean other (hperm.mem_iff.mp hother)) path
    simpa only [hperm.mem_iff] using hread
  · rw [htried, List.head?_cons]

/-- Documents that are imported more than once, under different spellings, and one that is not. -/
def spelledDocuments : Library :=
  .ofList [("a.yaml", "Import: [lib/b.yaml, ./d.yaml]\n"),
    ("lib/b.yaml", "Import: [c.yaml, ../d.yaml]\n"), ("lib/c.yaml", "Import: .././d.yaml\n"),
    ("d.yaml", "Constant N: 1\n"), ("e.yaml", "Import: a.yaml\n")]

theorem traverses_of_load_spelled :
    Path.clean "a.yaml" = "a.yaml" ∧
      ∃ p s, load spelledDocuments.source "a.yaml" = (.ok p, s) ∧
        p.namespaces.map Namespace.path =
          (["d.yaml", "lib/c.yaml", "lib/b.yaml", "a.yaml"] : List Text) ∧
        s.tried = (["a.yaml", "lib/b.yaml", "lib/c.yaml", "d.yaml"] : List Text) ∧
        p.Traverses spelledDocuments "a.yaml" s := by
  have hclean : Path.clean "a.yaml" = "a.yaml" := by decide +kernel
  have hok : (do
      let p ← (load spelledDocuments.source "a.yaml").1.toOption
      return (p.namespaces.map Namespace.path, (load spelledDocuments.source "a.yaml").2.tried)) =
        some ((["d.yaml", "lib/c.yaml", "lib/b.yaml", "a.yaml"] : List Text),
          (["a.yaml", "lib/b.yaml", "lib/c.yaml", "d.yaml"] : List Text)) := by decide +kernel
  obtain ⟨p, hp, hok⟩ := Option.bind_eq_some_iff.mp hok
  obtain ⟨hpaths, htried⟩ := Prod.mk.inj (Option.some.inj hok)
  have hload : load spelledDocuments.source "a.yaml" =
      (.ok p, (load spelledDocuments.source "a.yaml").2) := by
    rw [← eq_ok_of_toOption_eq_some hp]
  exact ⟨hclean, p, _, hload, hpaths, htried, traverses_of_load spelledDocuments hclean hload⟩

end Program

end RecordSchema
