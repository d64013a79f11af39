import RecordSchema.Proofs.Program.ImportCycle
import RecordSchema.Proofs.Program.Lookup
import RecordSchema.Proofs.Program.Reached

/-!
# Imports that are repeated

A reference that is written as an earlier one is skipped. One that leads to the document of an
earlier one, but is written otherwise, loads nothing and yet sets the definitions of that document
once more. Leaving it out therefore changes what is found under a name exactly if the document finds
the name, no later reference does, and another one has given the name something else in the
meantime.
-/

namespace RecordSchema

open Text Namespace Relation

section Options

variable {α : Type} (a b c d : Option α)

theorem or_or_eq_or_iff : a.or (b.or c) = a.or c ↔ a.isSome = true ∨ b = none ∨ c = b := by
  cases a <;> cases b <;> simp [eq_comm]

theorem or_or_or_comm_iff :
    a.or (b.or (c.or d)) = a.or (c.or (b.or d)) ↔
      a.isSome = true ∨ c = none ∨ b = none ∨ b = c := by
  cases a <;> cases b <;> cases c <;> simp

end Options

section Removal

variable {refs xs ys : List Text}

theorem removeAll_congr (h : ∀ ref ∈ refs, ref ∈ xs ↔ ref ∈ ys) :
    refs.removeAll xs = refs.removeAll ys :=
  List.filter_congr fun ref href => by simp [h ref href]

theorem removeAll_removeAll : (refs.removeAll xs).removeAll ys = refs.removeAll (xs ++ ys) := by
  simp [List.removeAll, List.filter_filter, Bool.and_comm]

theorem removeAll_concat_of_notMem {ref : Text} (h : ref ∉ refs) :
    refs.removeAll (xs ++ [ref]) = refs.removeAll xs :=
  removeAll_congr fun other hother => by
    have hne : other ≠ ref := fun heq => h (heq ▸ hother)
    simp [hne]

end Removal

namespace Namespace

section Found

variable (find : Text → Option Namespace) (path : Text) (k : Keyword) (name : Text)

/-- What references in a document find, each of them once and the last one first. -/
def found? (refs : List Text) : Option Definition :=
  refs.eraseDups.reverse.findSome? fun ref =>
    (find (Source.resolve path ref)).bind fun m => m.lookup? k name

theorem found?_append (refs more : List Text) :
    found? find path k name (refs ++ more) =
      (found? find path k name (more.removeAll refs)).or (found? find path k name refs) := by
  unfold found?
  rw [List.eraseDups_append, List.reverse_append, List.findSome?_append]

/-- Whether nothing else is found under a name when a reference is left out between others: it is
skipped, or its document does not find the name. Otherwise a reference after it has to find the
name, or those before it the same as it does. If it is written again, it is imported there instead,
past the references in between; then these have to find nothing else. -/
def IsSpare (found : List Text → Option Definition) (before : List Text) (later : Text)
    (after : List Text) : Prop :=
  later ∈ before ∨ found [later] = none ∨
    (later ∉ after ∧
      ((found (after.removeAll before)).isSome = true ∨ found before = found [later])) ∨
    ∃ between beyond, after = between ++ later :: beyond ∧ later ∉ between ∧
      ((found (beyond.removeAll (before ++ later :: between))).isSome = true ∨
        found (between.removeAll before) = none ∨ found (between.removeAll before) = found [later])

variable {find path k name} {before after : List Text} {later : Text}

theorem found?_cons_of_notMem (hnew : later ∉ before) :
    found? find path k name (before ++ later :: after) =
      (found? find path k name (after.removeAll (before ++ [later]))).or
        ((found? find path k name [later]).or (found? find path k name before)) := by
  rw [List.append_cons, found?_append, found?_append find path k name before, List.cons_removeAll,
    if_pos (by simpa using hnew)]
  rfl

/-- A reference that is not written again takes with it what its document alone finds. -/
theorem found?_dropped_iff (hnew : later ∉ before) (hlast : later ∉ after) :
    found? find path k name (before ++ after) = found? find path k name (before ++ later :: after) ↔
      found? find path k name [later] = none ∨
        (found? find path k name (after.removeAll before)).isSome = true ∨
          found? find path k name before = found? find path k name [later] := by
  rw [found?_cons_of_notMem hnew, found?_append, removeAll_concat_of_notMem hlast, eq_comm,
    or_or_eq_or_iff]
  exact or_left_comm

/-- A reference that is written again moves there. -/
theorem found?_moved_iff {between beyond : List Text} (hnew : later ∉ before)
    (hbetween : later ∉ between) :
    found? find path k name (before ++ (between ++ later :: beyond)) =
        found? find path k name (before ++ later :: (between ++ later :: beyond)) ↔
      found? find path k name [later] = none ∨
        (found? find path k name (beyond.removeAll (before ++ later :: between))).isSome = true ∨
          found? find path k name (between.removeAll before) = none ∨
            found? find path k name (between.removeAll before) =
              found? find path k name [later] := by
  have hmoved : found? find path k name (before ++ (between ++ later :: beyond)) =
      (found? find path k name (beyond.removeAll (before ++ later :: between))).or
        ((found? find path k name [later]).or
          ((found? find path k name (between.removeAll before)).or
            (found? find path k name before))) := by
    have hnew' : later ∉ before ++ between := by simp [hnew, hbetween]
    have hbeyond : beyond.removeAll (before ++ between ++ [later]) =
        beyond.removeAll (before ++ later :: between) := removeAll_congr fun ref _ => by
      simp only [List.mem_append, List.mem_cons, List.not_mem_nil]
      tauto
    rw [← List.append_assoc, found?_cons_of_notMem hnew', found?_append _ _ _ _ before between,
      hbeyond]
  have hothers :
      found? find path k name ((between ++ later :: beyond).removeAll (before ++ [later])) =
        (found? find path k name (beyond.removeAll (before ++ later :: between))).or
          (found? find path k name (between.removeAll before)) := by
    have hsplit : (between ++ later :: beyond).removeAll (before ++ [later]) =
        between.removeAll before ++ beyond.removeAll (before ++ [later]) := by
      rw [← removeAll_concat_of_notMem hbetween]
      simp [List.removeAll, List.filter_append]
    have hbeyond : beyond.removeAll (before ++ [later] ++ between.removeAll before) =
        beyond.removeAll (before ++ later :: between) := removeAll_congr fun ref _ => by
      simp only [List.removeAll, List.mem_append, List.mem_cons, List.not_mem_nil, List.mem_filter,
        Bool.not_eq_true', List.elem_eq_mem, decide_eq_false_iff_not]
      tauto
    rw [hsplit, found?_append, removeAll_removeAll, hbeyond]
  rw [hmoved, found?_cons_of_notMem hnew, hothers, Option.or_assoc, eq_comm, or_or_or_comm_iff]
  exact or_left_comm

theorem found?_eq_iff_isSpare (before : List Text) (later : Text) (after : List Text) :
    found? find path k name (before ++ after) = found? find path k name (before ++ later :: after) ↔
      IsSpare (found? find path k name) before later after := by
  unfold IsSpare
  by_cases hold : later ∈ before
  · have hskip : (later :: after).removeAll before = after.removeAll before := by
      rw [List.cons_removeAll, if_neg (by simpa using hold)]
    rw [found?_append, found?_append _ _ _ _ before (later :: after), hskip]
    exact iff_of_true rfl (Or.inl hold)
  · rw [or_iff_right hold]
    by_cases hagain : later ∈ after
    · constructor
      · intro heq
        obtain ⟨between, beyond, rfl, hbetween⟩ := List.eq_append_cons_of_mem hagain
        refine ((found?_moved_iff hold hbetween).mp heq).imp_right fun h => Or.inr ?_
        exact ⟨between, beyond, rfl, hbetween, h⟩
      · rintro (hnone | ⟨hlast, _⟩ | ⟨between, beyond, rfl, hbetween, h⟩)
        · obtain ⟨between, beyond, rfl, hbetween⟩ := List.eq_append_cons_of_mem hagain
          exact (found?_moved_iff hold hbetween).mpr (Or.inl hnone)
        · exact absurd hagain hlast
        · exact (found?_moved_iff hold hbetween).mpr (Or.inr h)
    · rw [found?_dropped_iff hold hagain]
      constructor
      · exact fun h => h.imp_right fun h => Or.inl ⟨hagain, h⟩
      · rintro (hnone | ⟨_, h⟩ | ⟨between, beyond, rfl, _⟩)
        · exact Or.inl hnone
        · exact Or.inr h
        · simp at hagain

theorem imported?_eq_found? {n : Namespace} {refs : List Text} (h : n.imports = refs.eraseDups) :
    n.imported? find k name = found? find n.path k name refs := by
  rw [imported?, h]
  rfl

theorem found?_congr {find' : Text → Option Namespace} {refs : List Text}
    (h : ∀ ref ∈ refs, find' (Source.resolve path ref) = find (Source.resolve path ref)) :
    found? find' path k name refs = found? find path k name refs := by
  have hmap : ∀ f : Text → Option Namespace, found? f path k name refs =
      (refs.eraseDups.reverse.map fun ref => f (Source.resolve path ref)).findSome?
        fun m => m.bind fun m => m.lookup? k name := fun f => by
    rw [List.findSome?_map]
    rfl
  rw [hmap, hmap, List.map_congr_left fun ref href =>
    h ref (List.mem_eraseDups.mp (List.mem_reverse.mp href))]

end Found

theorem isWellShaped_of_takeEntries {find : Text → Option Namespace} {es : List Entry}
    (n : Namespace) {n' : Namespace} (h : takeEntries find es n = some n') :
    ∀ e ∈ es,
      (if e.key.keyword = .imports then (e.imports n.path).isOk else Load.hasShape e) = true := by
  induction es generalizing n with
  | nil => exact fun _ he => absurd he List.not_mem_nil
  | cons e rest ih =>
      rw [takeEntries] at h
      rw [List.forall_mem_cons]
      split at h
      · next hk =>
          obtain ⟨refs, hrefs, h⟩ := Option.bind_eq_some_iff.mp h
          obtain ⟨n₁, hn₁, h⟩ := Option.bind_eq_some_iff.mp h
          rw [if_pos hk, eq_ok_of_toOption_eq_some hrefs]
          exact ⟨rfl, path_of_takeImports hn₁ ▸ ih n₁ h⟩
      · next hk =>
          rw [if_neg hk]
          split at h
          · next hshape => exact ⟨hshape, ih (n.defining e) h⟩
          · cases h

end Namespace

theorem Document.references_of_imports_eq {d : Document} {refs : List Text}
    (h : d.imports = .ok refs) : d.references = refs := by
  obtain ⟨lists, hlists, _⟩ := bind_eq_ok_iff.mp h
  have hreads : ∀ e ∈ d.entries, e.key.keyword = .imports →
      ∃ refs, e.imports d.path = .ok refs := by
    intro e he hk
    obtain ⟨refs, _, hrefs⟩ := exists_of_forall₂_left (mapM_eq_ok_iff.mp hlists) e
      (List.mem_filter.mpr ⟨he, decide_eq_true hk⟩)
    exact ⟨refs, hrefs⟩
  exact Except.ok.inj ((imports_eq_references hreads).symm.trans h)

namespace Loaded

variable {source source' : Source} {done : List Namespace} {n : Namespace}

theorem isWellShaped (h : Loaded source done) (hn : n ∈ done) :
    source.isWellShaped n.path = true := by
  obtain ⟨d, hd, hpath, htake, _⟩ := Source.imports_of_namespaceAt? (h.namespaceAt?_eq_some hn)
  have hentries := isWellShaped_of_takeEntries _ htake
  rw [Source.isWellShaped, hd, Option.any_some, Document.isWellShaped, List.all_eq_true, hpath]
  exact hentries

/-- Only the documents of the list matter. -/
theorem of_read_eq (h : Loaded source done)
    (hread : ∀ n ∈ done, source'.read n.path = source.read n.path) : Loaded source' done := by
  induction h with
  | nil => exact .nil
  | @snoc done last hdone hnew hat ih =>
      rw [List.forall_mem_append, List.forall_mem_singleton] at hread
      refine .snoc (ih hread.1) hnew ?_
      rw [Source.namespaceAt?, hread.2]
      exact hat

end Loaded

namespace Source

theorem imports_iff_mem {source : Source} {path other : Text} {d : Document} {refs : List Text}
    (hd : source.document? path = some d) (hrefs : d.imports = .ok refs) :
    source.Imports path other ↔ other ∈ refs.map (resolve path) := by
  rw [← Document.references_of_imports_eq hrefs, Imports, importsOf, hd]

/-- Whether the documents that can be reached from a root are shaped alike in two sources, and
have the same imports there. -/
structure Alike (source source' : Source) (root : Text) : Prop where
  isWellShaped_eq : ∀ path, ReflTransGen source.Imports root path →
    source'.isWellShaped path = source.isWellShaped path
  imports_iff : ∀ path, ReflTransGen source.Imports root path →
    ∀ other, source'.Imports path other ↔ source.Imports path other

namespace Alike

variable {source source' : Source} {root path other : Text}

theorem reachable_iff (h : source.Alike source' root)
    (hpath : ReflTransGen source.Imports root path) :
    ReflTransGen source'.Imports path other ↔ ReflTransGen source.Imports path other := by
  constructor
  · intro hr
    induction hr with
    | refl => exact .refl
    | tail _ hi ih => exact ih.tail ((h.imports_iff _ (hpath.trans ih) _).mp hi)
  · intro hr
    induction hr with
    | refl => exact .refl
    | tail hr hi ih => exact ih.tail ((h.imports_iff _ (hpath.trans hr) _).mpr hi)

theorem symm (h : source.Alike source' root) : source'.Alike source root :=
  ⟨fun path hpath => (h.isWellShaped_eq path ((h.reachable_iff .refl).mp hpath)).symm,
    fun path hpath other => (h.imports_iff path ((h.reachable_iff .refl).mp hpath) other).symm⟩

/-- A cycle in one of the sources is a cycle in the other one. -/
theorem transGen (h : source.Alike source' root) (hpath : ReflTransGen source.Imports root path)
    (hr : TransGen source'.Imports path other) : TransGen source.Imports path other := by
  obtain ⟨next, hi, hr⟩ := TransGen.head'_iff.mp hr
  have hi' := (h.imports_iff path hpath next).mp hi
  exact TransGen.head' hi' ((h.reachable_iff (hpath.tail hi')).mp hr)

end Alike

end Source

namespace Program

variable {source source' : Source} {root path : Text} {p p' : Program}

theorem mem_path_iff (h : (load source root).1 = .ok p) :
    path ∈ p.namespaces.map Namespace.path ↔ ReflTransGen source.Imports root path := by
  have hfrom := loadedFrom_of_load h
  obtain ⟨s, hrun, hdone⟩ := load_eq_ok_iff.mp h
  obtain ⟨more, tried, hadds⟩ := (Load.document_adds hrun).1
  constructor
  · intro hpath
    obtain ⟨n, hn, rfl⟩ := List.mem_map.mp hpath
    rw [hdone, hadds.done_eq] at hn
    exact hadds.reachable n hn
  · exact hfrom.loaded.mem_of_reachable
      (List.mem_map.mpr ⟨p.root, hfrom.root_mem, hfrom.root_path⟩)

/-- Where documents are shaped alike and import the same ones, a root is loaded from both sources
or from none. -/
theorem exists_load_of_alike (hsource' : source'.IsSized) (h : source.Alike source' root)
    (hload : (load source root).1 = .ok p) : ∃ p', (load source' root).1 = .ok p' := by
  have hloaded := (loadedFrom_of_load hload).loaded
  cases hload' : (load source' root).1 with
  | ok p' => exact ⟨p', rfl⟩
  | error e =>
      have hmem : ∀ x, ReflTransGen source'.Imports root x →
          x ∈ p.namespaces.map Namespace.path := fun x hx =>
        (mem_path_iff hload).mpr ((h.reachable_iff .refl).mp hx)
      have hall : ∀ x, ReflTransGen source'.Imports root x → source'.isWellShaped x = true := by
        intro x hx
        rw [h.isWellShaped_eq x ((h.reachable_iff .refl).mp hx)]
        obtain ⟨n, hn, rfl⟩ := List.mem_map.mp (hmem x hx)
        exact hloaded.isWellShaped hn
      -- Nothing but a cycle can stop the loader then, and the first source has none.
      obtain ⟨s, hrun⟩ := load_eq_error_iff.mp hload'
      obtain ⟨chain, _, hcycle, hsub⟩ := Load.exists_cycle_of_document_eq_error hsource'
        (.nil _ root) (Nat.le_succ _) hall hrun
      obtain ⟨x, hx, htrans⟩ := hcycle.exists_transGen
      have hreach := (hsub x hx).resolve_left List.not_mem_nil
      exact absurd (h.transGen ((h.reachable_iff .refl).mp hreach) htrans)
        (hloaded.not_transGen_imports (hmem x hreach))

/-- The imports of a document find in the whole program what they find. -/
theorem external_eq_found? (h : (load source root).1 = .ok p) {n : Namespace}
    (hn : n ∈ p.namespaces)
    {d : Document} (hd : source.document? n.path = some d) {refs : List Text}
    (hrefs : d.imports = .ok refs) (k : Keyword) (name : Text) :
    n.external.get? k name = found? p.namespace? n.path k name refs := by
  have hloaded := (loadedFrom_of_load h).loaded
  obtain ⟨d', hd', _, htake, _, himports, _⟩ :=
    Source.imports_of_namespaceAt? (hloaded.namespaceAt?_eq_some hn)
  cases hd.symm.trans hd'
  rw [Document.references_of_imports_eq hrefs] at himports
  rw [← imported?_eq_found? himports]
  exact external_of_takeEntries htake (fun x m hm => hloaded.distinct (mem_of_findIn hm).1) rfl

/-- Imports of a document are loaded alike from sources that differ in no other document. -/
theorem namespace?_eq_of_imports (h : (load source root).1 = .ok p)
    (h' : (load source' root).1 = .ok p')
    (hread : ∀ other, ReflTransGen source.Imports root other → other ≠ path →
      source'.read other = source.read other)
    {n : Namespace} (hn : n ∈ p.namespaces) (hpath : n.path = path) {other : Text}
    (hi : source.Imports path other) (hother : ReflTransGen source'.Imports root other) :
    p'.namespace? other = p.namespace? other := by
  have hloaded := (loadedFrom_of_load h).loaded
  have hloaded' := (loadedFrom_of_load h').loaded
  obtain ⟨before, after, hall⟩ := List.append_of_mem hn
  have hsplit := hloaded
  rw [hall] at hsplit
  -- The documents before this one are the same in both sources, so one list holds them for both.
  have hbefore : Loaded source' before := by
    refine hsplit.left_of_append.of_read_eq fun m hm => ?_
    have hmem : m ∈ p.namespaces := hall ▸ List.mem_append_left _ hm
    refine hread m.path ((mem_path_iff h).mp (List.mem_map_of_mem hmem)) fun heq => ?_
    have hnodup := hsplit.nodup_path
    rw [List.map_append, List.map_cons] at hnodup
    refine List.disjoint_of_nodup_append hnodup (List.mem_map_of_mem hm) ?_
    rw [heq, hpath]
    exact List.mem_cons_self
  obtain ⟨m, hm, rfl⟩ := List.mem_map.mp (hsplit.mem_before_of_imports (hpath.symm ▸ hi))
  obtain ⟨m', hm', hpath'⟩ := List.mem_map.mp ((mem_path_iff h').mpr hother)
  have heq := hbefore.eq_of_path_eq hloaded' hm hm' hpath'.symm
  subst heq
  have hmem : m ∈ p.namespaces := hall ▸ List.mem_append_left _ hm
  exact (hloaded'.findIn_eq_some hm').trans (hloaded.findIn_eq_some hmem).symm

end Program

/-- What the document at a path imports, and whether it is well shaped. -/
def Source.outline? (source : Source) (path : Text) : Option (List Text × Bool) := do
  let d ← source.document? path
  let refs ← d.imports.toOption
  return (refs, d.isWellShaped)

theorem Source.exists_of_outline? {source : Source} {path : Text} {refs : List Text} {shape : Bool}
    (h : source.outline? path = some (refs, shape)) :
    ∃ d, source.document? path = some d ∧ d.imports = .ok refs ∧ d.isWellShaped = shape := by
  obtain ⟨d, hd, h⟩ := Option.bind_eq_some_iff.mp h
  obtain ⟨refs', hrefs, h⟩ := Option.bind_eq_some_iff.mp h
  cases h
  exact ⟨d, hd, eq_ok_of_toOption_eq_some hrefs, rfl⟩

/-- Whether sources differ, as far as a root leads, in one document alone: of two references there
that lead to the same document the later one is left out. What the document defines may change as
well. -/
structure Source.DropsImport (source source' : Source) (root path : Text) (before : List Text)
    (later : Text) (after : List Text) : Prop where
  read_eq : ∀ other, ReflTransGen source.Imports root other → other ≠ path →
    source'.read other = source.read other
  outline_eq : ∃ shape, source.outline? path = some (before ++ later :: after, shape) ∧
    source'.outline? path = some (before ++ after, shape)
  repeated : ∃ first ∈ before, Source.resolve path first = Source.resolve path later

namespace Source

variable {source source' : Source} {root path : Text} {before after : List Text} {later : Text}

theorem DropsImport.alike (h : source.DropsImport source' root path before later after) :
    source.Alike source' root := by
  obtain ⟨shape, houtline, houtline'⟩ := h.outline_eq
  obtain ⟨d, hd, hrefs, hshape⟩ := exists_of_outline? houtline
  obtain ⟨d', hd', hrefs', hshape'⟩ := exists_of_outline? houtline'
  obtain ⟨first, hfirst, hsame⟩ := h.repeated
  have hother : ∀ other, ReflTransGen source.Imports root other → other ≠ path →
      source'.document? other = source.document? other := by
    intro other hr hne
    rw [document?, document?, h.read_eq other hr hne]
  refine ⟨fun other hr => ?_, fun other hr target => ?_⟩
  · by_cases heq : other = path
    · rw [heq, isWellShaped, isWellShaped, hd, hd']
      exact hshape'.trans hshape.symm
    · rw [isWellShaped, isWellShaped, hother other hr heq]
  · by_cases heq : other = path
    · have hleads : target = resolve path later → target ∈ before.map (resolve path) := fun ht =>
        List.mem_map.mpr ⟨first, hfirst, hsame.trans ht.symm⟩
      rw [heq, imports_iff_mem hd hrefs, imports_iff_mem hd' hrefs']
      simp only [List.map_append, List.map_cons, List.mem_append, List.mem_cons]
      tauto
    · rw [Imports, Imports, importsOf, importsOf, hother other hr heq]

end Source

namespace Program

/-- Of two references in a document that lead to the same document the later one can be left out as
far as loading goes. Whether the imports of the document still find the same under a name depends
on what stands around the reference: it is spelled as an earlier one, or nothing that matters for
the name comes between the two. -/
theorem external_eq_iff_isSpare {source source' : Source} (hsource : source.IsSized)
    (hsource' : source'.IsSized) {root path : Text} {before after : List Text} {later : Text}
    (h : source.DropsImport source' root path before later after) :
    ((∃ p, (load source root).1 = .ok p) ↔ ∃ p', (load source' root).1 = .ok p') ∧
    ∀ p p', (load source root).1 = .ok p → (load source' root).1 = .ok p' →
      ∀ n ∈ p.namespaces, n.path = path →
        ∃ n' ∈ p'.namespaces, n'.path = path ∧ ∀ k name,
          n'.external.get? k name = n.external.get? k name ↔
            IsSpare (found? p.namespace? path k name) before later after := by
  have halike := h.alike
  refine ⟨⟨fun ⟨p, hp⟩ => exists_load_of_alike hsource' halike hp,
    fun ⟨p', hp'⟩ => exists_load_of_alike hsource halike.symm hp'⟩, ?_⟩
  intro p p' hp hp' n hn hpath
  subst hpath
  have hreach := (mem_path_iff hp).mp (List.mem_map_of_mem hn)
  obtain ⟨n', hn', hpath'⟩ :=
    List.mem_map.mp ((mem_path_iff hp').mpr ((halike.reachable_iff .refl).mpr hreach))
  refine ⟨n', hn', hpath', fun k name => ?_⟩
  obtain ⟨shape, houtline, houtline'⟩ := h.outline_eq
  obtain ⟨d, hd, hrefs, _⟩ := Source.exists_of_outline? houtline
  obtain ⟨d', hd', hrefs', _⟩ := Source.exists_of_outline? houtline'
  have hagree : ∀ ref ∈ before ++ after,
      p'.namespace? (Source.resolve n.path ref) = p.namespace? (Source.resolve n.path ref) := by
    intro ref href
    have hi' := (Source.imports_iff_mem hd' hrefs').mpr (List.mem_map_of_mem href)
    have hi := (halike.imports_iff _ hreach _).mp hi'
    exact namespace?_eq_of_imports hp hp' h.read_eq hn rfl hi
      ((halike.reachable_iff .refl).mpr (hreach.tail hi))
  rw [external_eq_found? hp hn hd hrefs, external_eq_found? hp' hn' (hpath'.symm ▸ hd') hrefs',
    hpath', found?_congr hagree, found?_eq_iff_isSpare]

/-- Documents in which two constants have the same name, and one that imports them, the first of
them again under another spelling. -/
def repeatedDocuments : Library :=
  .ofList [("a.yaml", "Import: [b.yaml, c.yaml, ./b.yaml]\n"), ("b.yaml", "Constant N: 2\n"),
    ("c.yaml", "Constant N: 3\n")]

/-- The same without the second spelling. -/
def spelledOnce : Library :=
  .ofList [("a.yaml", "Import: [b.yaml, c.yaml]\n"), ("b.yaml", "Constant N: 2\n"),
    ("c.yaml", "Constant N: 3\n")]

/-- The document in which the imports of a namespace find a constant. -/
def importedFrom? (n : Namespace) (name : Text) : Option Text :=
  (n.external.get? .constant name).map Definition.document

theorem external_eq_iff_isSpare_spelled :
    repeatedDocuments.source.DropsImport spelledOnce.source "a.yaml" "a.yaml" ["b.yaml", "c.yaml"]
        "./b.yaml" [] ∧
      ∃ p p', (load repeatedDocuments.source "a.yaml").1 = .ok p ∧
        (load spelledOnce.source "a.yaml").1 = .ok p' ∧ p.root ∈ p.namespaces ∧
        importedFrom? p.root "N" = some ("b.yaml" : Text) ∧
        importedFrom? p'.root "N" = some ("c.yaml" : Text) ∧
        ∃ n' ∈ p'.namespaces, n'.path = "a.yaml" ∧ ∀ k name,
          n'.external.get? k name = p.root.external.get? k name ↔
            IsSpare (found? p.namespace? "a.yaml" k name) ["b.yaml", "c.yaml"] "./b.yaml" [] := by
  have hok : (do
      let p ← (load repeatedDocuments.source "a.yaml").1.toOption
      let p' ← (load spelledOnce.source "a.yaml").1.toOption
      return (p.namespaces.map Namespace.path, importedFrom? p.root "N",
        importedFrom? p'.root "N")) =
        some ((["b.yaml", "c.yaml", "a.yaml"] : List Text), some ("b.yaml" : Text),
          some ("c.yaml" : Text)) := by
    decide +kernel
  obtain ⟨p, hp, hok⟩ := Option.bind_eq_some_iff.mp hok
  obtain ⟨p', hp', hok⟩ := Option.bind_eq_some_iff.mp hok
  obtain ⟨hpaths, hok⟩ := Prod.mk.inj (Option.some.inj hok)
  obtain ⟨hfound, hfound'⟩ := Prod.mk.inj hok
  have hload := eq_ok_of_toOption_eq_some hp
  have hload' := eq_ok_of_toOption_eq_some hp'
  have hdrops : repeatedDocuments.source.DropsImport spelledOnce.source "a.yaml" "a.yaml"
      ["b.yaml", "c.yaml"] "./b.yaml" [] := by
    refine ⟨fun other hr hne => ?_, ⟨true, by decide +kernel, by decide +kernel⟩,
      "b.yaml", List.mem_cons_self, by decide +kernel⟩
    have hmem := (mem_path_iff hload).mpr hr
    rw [hpaths] at hmem
    rcases List.mem_cons.mp hmem with rfl | hmem
    · decide +kernel
    · rcases List.mem_cons.mp hmem with rfl | hmem
      · decide +kernel
      · exact absurd (List.mem_singleton.mp hmem) hne
  have hfrom := loadedFrom_of_load hload
  exact ⟨hdrops, p, p', hload, hload', hfrom.root_mem, hfound, hfound',
    (external_eq_iff_isSpare repeatedDocuments.isSized_source spelledOnce.isSized_source hdrops).2
      p p' hload hload' p.root hfrom.root_mem hfrom.root_path⟩

end Program

end RecordSchema
