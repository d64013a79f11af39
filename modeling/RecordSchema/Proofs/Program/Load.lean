import RecordSchema.Proofs.Program.Loaded

/-!
# Runs of the loader

A successful run adds namespaces behind those that are loaded already and keeps the list in import
order. Conversely every document of such a list can be loaded again, on its own or after others, and
its namespace is the one of the list.
-/

namespace RecordSchema

open Text Namespace

/-- Paths that a reference in a document leads to. -/
def Source.IsResolved (path : Text) : Prop := ∃ document ref, path = Source.resolve document ref

namespace Load

variable {source : Source} {s s' : Loading}

section Runs

variable {α β : Type}

theorem run_bind (x : Load α) (f : α → Load β) :
    (x >>= f).run s =
      match x.run s with
      | (.ok a, s₁) => (f a).run s₁
      | (.error e, s₁) => (.error e, s₁) := by
  change (match x.run s with | (a, s₁) => ExceptT.bindCont f a s₁) = _
  rcases x.run s with ⟨_ | a, s₁⟩
  · rfl
  · rfl

theorem run_bind_eq_ok_iff {x : Load α} {f : α → Load β} {b : β} :
    (x >>= f).run s = (.ok b, s') ↔
      ∃ a s₁, x.run s = (.ok a, s₁) ∧ (f a).run s₁ = (.ok b, s') := by
  rw [run_bind]
  rcases x.run s with ⟨e | a, s₁⟩
  · constructor
    · intro h
      cases h
    · rintro ⟨a, s₂, h, _⟩
      cases h
  · constructor
    · intro h
      exact ⟨a, s₁, rfl, h⟩
    · rintro ⟨a', s₂, h, hf⟩
      cases h
      exact hf

theorem run_get_bind (f : Loading → Load β) : (get >>= f).run s = (f s).run s := rfl

theorem run_modify_bind (g : Loading → Loading) (f : PUnit → Load β) :
    (modify g >>= f).run s = (f ⟨⟩).run (g s) := rfl

theorem run_forM_report (events : List LogEvent) :
    (events.forM report).run s = (.ok ⟨⟩, { s with log := s.log ++ events }) := by
  induction events generalizing s with
  | nil =>
      rw [List.append_nil]
      rfl
  | cons e rest ih =>
      change (report e >>= fun _ => rest.forM report).run s = _
      refine run_bind_eq_ok_iff.mpr ⟨⟨⟩, { s with log := s.log ++ [e] }, rfl, ?_⟩
      rw [ih, List.append_assoc]
      rfl

end Runs

section Steps

variable {load : Text → Load Namespace} {n n' : Namespace}

theorem run_importAll_cons {ref : Text} {rest : List Text} (hc : ¬ n.imports.contains ref = true) :
    (importAll load (ref :: rest) n).run s =
      match (load (Source.resolve n.path ref)).run s with
      | (.ok m, s₁) => (importAll load rest (n.importing ref m)).run s₁
      | (.error e, s₁) => (.error (.imported n.path ref e), s₁) := by
  rw [importAll, if_neg hc, run_get_bind]
  rcases (load (Source.resolve n.path ref)).run s with ⟨_ | _, s₁⟩
  · rfl
  · rfl

theorem importAll_cons_eq_ok_iff {ref : Text} {rest : List Text}
    (hc : ¬ n.imports.contains ref = true) :
    (importAll load (ref :: rest) n).run s = (.ok n', s') ↔
      ∃ m s₁, (load (Source.resolve n.path ref)).run s = (.ok m, s₁) ∧
        (importAll load rest (n.importing ref m)).run s₁ = (.ok n', s') := by
  rw [run_importAll_cons hc]
  rcases (load (Source.resolve n.path ref)).run s with ⟨e | m, s₁⟩
  · constructor
    · intro h
      cases h
    · rintro ⟨m, s₂, h, _⟩
      cases h
  · constructor
    · intro h
      exact ⟨m, s₁, rfl, h⟩
    · rintro ⟨m', s₂, h, hrest⟩
      cases h
      exact hrest

theorem path_of_importAll {refs : List Text}
    (h : (importAll load refs n).run s = (.ok n', s')) : n'.path = n.path := by
  induction refs generalizing n s with
  | nil =>
      cases h
      rfl
  | cons ref rest ih =>
      by_cases hc : n.imports.contains ref = true
      · rw [importAll, if_pos hc] at h
        exact ih h
      · obtain ⟨m, s₁, _, h⟩ := (importAll_cons_eq_ok_iff hc).mp h
        exact ih (n := n.importing ref m) h

theorem entries_cons (load : Text → Load Namespace) (e : Entry) (rest : List Entry)
    (n : Namespace) :
    entries load (e :: rest) n =
      if e.key.keyword = .imports then
        match e.imports n.path with
        | .error cause => refuse cause
        | .ok refs => importAll load refs n >>= entries load rest
      else if hasShape e then entries load rest (n.defining e)
      else refuse (.malformed (e.place n.path) (shapeReason e)) := rfl

theorem path_of_entries {es : List Entry} (h : (entries load es n).run s = (.ok n', s')) :
    n'.path = n.path := by
  induction es generalizing n s with
  | nil =>
      cases h
      rfl
  | cons e rest ih =>
      rw [entries_cons] at h
      split at h
      · split at h
        · cases h
        · obtain ⟨n₁, s₁, hn₁, h⟩ := run_bind_eq_ok_iff.mp h
          exact (ih h).trans (path_of_importAll hn₁)
      · split at h
        · exact ih (n := n.defining e) h
        · cases h

/-- The progress after a document has been loaded. -/
def finished (path : Text) (n : Namespace) (s : Loading) : Loading :=
  { s with
    done := s.done ++ [n]
    log := s.log ++ shadows n ++ [.debug "document loaded"
      [("document", .text path), ("objects", .int (n.own.ofKind .object).length),
        ("imports", .int n.imports.length)]] }

theorem document_of_found {fuel : Nat} {opened : List Text} {path : Text}
    (hf : findIn s.done path = some n) :
    (document source (fuel + 1) opened path).run s = (.ok n, s) := by
  rw [document, visit, run_get_bind]
  rw [findIn] at hf
  rw [hf]
  rfl

/-- A document that is not loaded yet is read, parsed and taken in entry by entry. -/
theorem document_eq_ok_iff_of_new {fuel : Nat} {opened : List Text} {path : Text}
    (hf : findIn s.done path = none) :
    (document source (fuel + 1) opened path).run s = (.ok n, s') ↔
      path ∉ opened ∧ ∃ text d s₁, source.read path = .ok text ∧ Document.parse path text = .ok d ∧
        (entries (document source fuel (opened ++ [path])) d.entries
          { path, name := Source.schemaName path }).run { s with tried := s.tried ++ [path] } =
            (.ok n, s₁) ∧ s' = finished path n s₁ := by
  rw [document, visit, run_get_bind]
  rw [findIn] at hf
  rw [hf]
  constructor
  · intro h
    simp only at h
    split at h
    · cases h
    · next hc =>
        rw [run_modify_bind] at h
        split at h
        · cases h
        · next text hread =>
            split at h
            · cases h
            · next d hparse =>
                obtain ⟨n₁, s₁, hentries, h⟩ := run_bind_eq_ok_iff.mp h
                obtain ⟨_, s₂, hreport, h⟩ := run_bind_eq_ok_iff.mp h
                rw [run_forM_report] at hreport
                cases hreport
                cases h
                exact ⟨by simpa using hc, text, d, s₁, hread, hparse, hentries, rfl⟩
  · rintro ⟨hno, text, d, s₁, hread, hparse, hentries, rfl⟩
    have hc : ¬ opened.contains path = true := by simpa using hno
    simp only [if_neg hc, run_modify_bind, hread, hparse]
    refine run_bind_eq_ok_iff.mpr ⟨n, s₁, hentries, ?_⟩
    exact run_bind_eq_ok_iff.mpr ⟨⟨⟩, _, run_forM_report _, rfl⟩

end Steps

section Sound

/-- What a successful run does: it adds namespaces behind the loaded ones, at paths with a
property. -/
structure Grows (source : Source) (P : Text → Prop) (s s' : Loading) : Prop where
  loaded : Loaded source s'.done
  added : ∃ more, s'.done = s.done ++ more ∧ ∀ m ∈ more, P m.path

variable {P Q : Text → Prop} {s₁ : Loading}

theorem Grows.refl (h : Loaded source s.done) : Grows source P s s := ⟨h, [], by simp, by simp⟩

theorem Grows.trans (h : Grows source P s s₁) (h' : Grows source P s₁ s') :
    Grows source P s s' := by
  obtain ⟨more, hmore, hP⟩ := h.added
  obtain ⟨more', hmore', hP'⟩ := h'.added
  refine ⟨h'.loaded, more ++ more', ?_, ?_⟩
  · rw [hmore', hmore, List.append_assoc]
  · intro m hm
    rcases List.mem_append.mp hm with hm | hm
    · exact hP m hm
    · exact hP' m hm

theorem Grows.mono (h : Grows source P s s') (hPQ : ∀ x, P x → Q x) : Grows source Q s s' := by
  obtain ⟨more, hmore, hP⟩ := h.added
  exact ⟨h.loaded, more, hmore, fun m hm => hPQ _ (hP m hm)⟩

theorem Grows.findIn_eq_some (h : Grows source P s s') {x : Text} {m : Namespace}
    (hm : findIn s.done x = some m) : findIn s'.done x = some m := by
  obtain ⟨more, hmore, _⟩ := h.added
  rw [hmore]
  exact findIn_append hm more

/-- Whether every successful call for a resolved path grows the list and gives the namespace of the
path. -/
def Sound (source : Source) (P : Text → Prop) (load : Text → Load Namespace) : Prop :=
  ∀ x s s' m, Source.IsResolved x → Loaded source s.done → (load x).run s = (.ok m, s') →
    Grows source P s s' ∧ findIn s'.done x = some m

variable {load : Text → Load Namespace} {n n' : Namespace}

theorem importAll_sound (hload : Sound source P load) {refs : List Text}
    (hs : Loaded source s.done) (h : (importAll load refs n).run s = (.ok n', s')) :
    Grows source P s s' ∧ takeImports (findIn s'.done) refs n = some n' := by
  induction refs generalizing n s with
  | nil =>
      cases h
      exact ⟨.refl hs, rfl⟩
  | cons ref rest ih =>
      by_cases hc : n.imports.contains ref = true
      · rw [importAll, if_pos hc] at h
        rw [takeImports, if_pos hc]
        exact ih hs h
      · obtain ⟨m, s₁, hm, h⟩ := (importAll_cons_eq_ok_iff hc).mp h
        obtain ⟨hgrows, hfind⟩ := hload _ s s₁ m ⟨_, _, rfl⟩ hs hm
        obtain ⟨hgrows', htake⟩ := ih hgrows.loaded h
        refine ⟨hgrows.trans hgrows', ?_⟩
        rw [takeImports, if_neg hc]
        exact Option.bind_eq_some_iff.mpr ⟨m, hgrows'.findIn_eq_some hfind, htake⟩

theorem entries_sound (hload : Sound source P load) {es : List Entry}
    (hs : Loaded source s.done) (h : (entries load es n).run s = (.ok n', s')) :
    Grows source P s s' ∧ takeEntries (findIn s'.done) es n = some n' := by
  induction es generalizing n s with
  | nil =>
      cases h
      exact ⟨.refl hs, rfl⟩
  | cons e rest ih =>
      rw [entries_cons] at h
      rw [takeEntries]
      split at h
      · next hk =>
          rw [if_pos hk]
          split at h
          · cases h
          · next refs hrefs =>
              obtain ⟨n₁, s₁, hn₁, h⟩ := run_bind_eq_ok_iff.mp h
              obtain ⟨hgrows, htake⟩ := importAll_sound hload hs hn₁
              obtain ⟨hgrows', htake'⟩ := ih hgrows.loaded h
              refine ⟨hgrows.trans hgrows', ?_⟩
              refine Option.bind_eq_some_iff.mpr ⟨refs, by rw [hrefs]; rfl, ?_⟩
              have hle := fun x m => hgrows'.findIn_eq_some (x := x) (m := m)
              exact Option.bind_eq_some_iff.mpr ⟨n₁, takeImports_mono hle htake, htake'⟩
      · next hk =>
          rw [if_neg hk]
          split at h
          · next hshape =>
              rw [if_pos hshape]
              exact ih hs h
          · cases h

/-- A successful run for a path adds namespaces of documents that are not being loaded, all but
that of the path itself behind references. -/
theorem document_sound {fuel : Nat} {opened : List Text} {path : Text}
    (hs : Loaded source s.done) (h : (document source fuel opened path).run s = (.ok n, s')) :
    Grows source (fun x => x ∉ opened ∧ (x = path ∨ Source.IsResolved x)) s s' ∧
      findIn s'.done path = some n := by
  induction fuel generalizing opened path s s' n with
  | zero => cases h
  | succ fuel ih =>
      cases hf : findIn s.done path with
      | some m =>
          rw [document_of_found hf] at h
          cases h
          exact ⟨.refl hs, hf⟩
      | none =>
          obtain ⟨hno, text, d, s₁, hread, hparse, hentries, rfl⟩ :=
            (document_eq_ok_iff_of_new hf).mp h
          -- Below the document its own path is open as well, so no reference can load it first.
          have hload : Sound source (fun x => x ∉ opened ++ [path] ∧ Source.IsResolved x)
              (document source fuel (opened ++ [path])) := by
            intro x t t' m hx ht hm
            obtain ⟨hgrows, hfind⟩ := ih ht hm
            refine ⟨hgrows.mono ?_, hfind⟩
            rintro y ⟨hy, rfl | hres⟩
            · exact ⟨hy, hx⟩
            · exact ⟨hy, hres⟩
          obtain ⟨hgrows, htake⟩ := entries_sound
            (s := { s with tried := s.tried ++ [path] }) hload hs hentries
          obtain ⟨more, hmore, hnew⟩ := hgrows.added
          have hat : source.namespaceAt? (findIn s₁.done) path = some n :=
            Source.namespaceAt?_eq_some_iff.mpr ⟨text, d, hread, hparse, htake⟩
          have hpath := Source.path_of_namespaceAt? hat
          have hfresh : findIn s₁.done path = none := by
            rw [findIn_eq_none_iff, hmore, List.map_append, List.mem_append]
            rintro (hmem | hmem)
            · exact findIn_eq_none_iff.mp hf hmem
            · obtain ⟨m, hm, rfl⟩ := List.mem_map.mp hmem
              exact (hnew m hm).1 (List.mem_append_right _ List.mem_cons_self)
          have hloaded : Loaded source (s₁.done ++ [n]) :=
            .snoc hgrows.loaded (by rw [hpath]; exact hfresh) (by rw [hpath]; exact hat)
          refine ⟨⟨hloaded, more ++ [n], ?_, ?_⟩, ?_⟩
          · rw [finished, hmore, List.append_assoc]
          · intro m hm
            rcases List.mem_append.mp hm with hm | hm
            · have := hnew m hm
              exact ⟨fun hopen => this.1 (List.mem_append_left _ hopen), Or.inr this.2⟩
            · rw [List.mem_singleton.mp hm, hpath]
              exact ⟨hno, Or.inl rfl⟩
          · rw [← hpath]
            exact hloaded.findIn_eq_some (List.mem_append_right _ List.mem_cons_self)

end Sound

section Complete

/-- Whether calls for the paths that `find` knows succeed, whatever has been loaded before, and
load only namespaces of a list. -/
def Serves (source : Source) (known : List Namespace) (find : Text → Option Namespace)
    (load : Text → Load Namespace) : Prop :=
  ∀ x m s, find x = some m → Loaded source s.done →
    ∃ s', (load x).run s = (.ok m, s') ∧ Loaded source s'.done ∧
      ∀ m ∈ s'.done, m ∈ s.done ∨ m ∈ known

variable {known : List Namespace} {find : Text → Option Namespace}
variable {load : Text → Load Namespace} {n n' : Namespace}

theorem importAll_complete (hload : Serves source known find load) {refs : List Text}
    (hs : Loaded source s.done) (h : takeImports find refs n = some n') :
    ∃ s', (importAll load refs n).run s = (.ok n', s') ∧ Loaded source s'.done ∧
      ∀ m ∈ s'.done, m ∈ s.done ∨ m ∈ known := by
  induction refs generalizing n s with
  | nil =>
      cases h
      exact ⟨s, rfl, hs, fun m hm => Or.inl hm⟩
  | cons ref rest ih =>
      rw [takeImports] at h
      by_cases hc : n.imports.contains ref = true
      · rw [if_pos hc] at h
        rw [importAll, if_pos hc]
        exact ih hs h
      · rw [if_neg hc] at h
        obtain ⟨m, hm, h⟩ := Option.bind_eq_some_iff.mp h
        obtain ⟨s₁, hrun, hs₁, hmem⟩ := hload _ m s hm hs
        obtain ⟨s', hrun', hs', hmem'⟩ := ih hs₁ h
        refine ⟨s', (importAll_cons_eq_ok_iff hc).mpr ⟨m, s₁, hrun, hrun'⟩, hs', ?_⟩
        intro a ha
        rcases hmem' a ha with ha | ha
        · exact hmem a ha
        · exact Or.inr ha

theorem entries_complete (hload : Serves source known find load) {es : List Entry}
    (hs : Loaded source s.done) (h : takeEntries find es n = some n') :
    ∃ s', (entries load es n).run s = (.ok n', s') ∧ Loaded source s'.done ∧
      ∀ m ∈ s'.done, m ∈ s.done ∨ m ∈ known := by
  induction es generalizing n s with
  | nil =>
      cases h
      exact ⟨s, rfl, hs, fun m hm => Or.inl hm⟩
  | cons e rest ih =>
      rw [takeEntries] at h
      rw [entries_cons]
      split at h
      · next hk =>
          rw [if_pos hk]
          obtain ⟨refs, hrefs, h⟩ := Option.bind_eq_some_iff.mp h
          obtain ⟨n₁, hn₁, h⟩ := Option.bind_eq_some_iff.mp h
          rw [eq_ok_of_toOption_eq_some hrefs]
          obtain ⟨s₁, hrun, hs₁, hmem⟩ := importAll_complete hload hs hn₁
          obtain ⟨s', hrun', hs', hmem'⟩ := ih hs₁ h
          refine ⟨s', run_bind_eq_ok_iff.mpr ⟨n₁, s₁, hrun, hrun'⟩, hs', ?_⟩
          intro a ha
          rcases hmem' a ha with ha | ha
          · exact hmem a ha
          · exact Or.inr ha
      · next hk =>
          rw [if_neg hk]
          split at h
          · next hshape =>
              rw [if_pos hshape]
              exact ih hs h
          · cases h

/-- A document of a loaded list can be loaded after any others: its imports stand before it in the
list and none of them is being loaded. -/
theorem document_complete (h : Loaded source known) (hn : n ∈ known) {fuel : Nat}
    (hfuel : known.length ≤ fuel) {opened : List Text} (hopen : ∀ m ∈ known, m.path ∉ opened)
    (hs : Loaded source s.done) :
    ∃ s', (document source fuel opened n.path).run s = (.ok n, s') ∧ Loaded source s'.done ∧
      ∀ m ∈ s'.done, m ∈ s.done ∨ m ∈ known := by
  induction h generalizing n fuel opened s with
  | nil => cases hn
  | @snoc done last hdone hnew hat ih =>
      have hlen : done.length + 1 ≤ fuel := by simpa using hfuel
      obtain ⟨fuel, rfl⟩ : ∃ f, fuel = f + 1 := ⟨fuel - 1, by omega⟩
      have hopen' : ∀ m ∈ done, m.path ∉ opened :=
        fun m hm => hopen m (List.mem_append_left _ hm)
      have hlast : ∀ {l : List Namespace} {a : Namespace}, a ∈ l ∨ a ∈ done →
          a ∈ l ∨ a ∈ done ++ [last] := fun hor => hor.imp_right (List.mem_append_left _)
      rcases List.mem_append.mp hn with hn | hn
      · obtain ⟨s', hrun, hs', hmem⟩ := ih hn (Nat.le_of_succ_le hlen) hopen' hs
        exact ⟨s', hrun, hs', fun a ha => hlast (hmem a ha)⟩
      · have hn := List.mem_singleton.mp hn
        subst hn
        cases hf : findIn s.done n.path with
        | some m =>
            obtain ⟨hm, hpath⟩ := mem_of_findIn hf
            have hfull := Loaded.snoc hdone hnew hat
            have heq := hfull.eq_of_path_eq hs (List.mem_append_right _ List.mem_cons_self) hm
              hpath.symm
            refine ⟨s, ?_, hs, fun a ha => Or.inl ha⟩
            rw [document_of_found hf, heq]
        | none =>
            obtain ⟨text, d, hread, hparse, htake⟩ := Source.namespaceAt?_eq_some_iff.mp hat
            have hserves : Serves source done (findIn done)
                (document source fuel (opened ++ [n.path])) := by
              intro x m t hm ht
              obtain ⟨hmem, rfl⟩ := mem_of_findIn hm
              refine ih hmem (by omega) ?_ ht
              intro a ha
              rw [List.mem_append, List.mem_singleton]
              rintro (hin | hin)
              · exact hopen' a ha hin
              · exact findIn_eq_none_iff.mp hnew (hin ▸ List.mem_map_of_mem ha)
            obtain ⟨s₁, hrun, hs₁, hmem⟩ := entries_complete
              (s := { s with tried := s.tried ++ [n.path] }) hserves hs htake
            have hno : n.path ∉ opened :=
              hopen n (List.mem_append_right _ List.mem_cons_self)
            have hdoc := (document_eq_ok_iff_of_new hf).mpr
              ⟨hno, text, d, s₁, hread, hparse, hrun, rfl⟩
            refine ⟨finished n.path n s₁, hdoc, (document_sound hs hdoc).1.loaded, ?_⟩
            intro a ha
            rcases List.mem_append.mp ha with ha | ha
            · exact hlast (hmem a ha)
            · exact Or.inr (List.mem_append_right _ ha)

end Complete

end Load

namespace Program

variable {source : Source} {root : Text} {p : Program}

/-- What a program consists of that has been loaded from a document. -/
structure LoadedFrom (source : Source) (root : Text) (p : Program) : Prop where
  loaded : Loaded source p.namespaces
  root_mem : p.root ∈ p.namespaces
  root_path : p.root.path = root
  /-- All documents but the root are there because of a reference. -/
  path : ∀ n ∈ p.namespaces, n.path = root ∨ Source.IsResolved n.path

/-- Whether the documents of a program are different and their definitions know where they are
from. -/
structure IsLocated (p : Program) : Prop where
  nodup_path : (p.namespaces.map Namespace.path).Nodup
  declares : ∀ n ∈ p.namespaces, n.Declares

theorem load_eq_iff {s : Loading} :
    load source root = (.ok p, s) ↔
      (Load.document source (source.size + 3) [] root).run {} = (.ok p.root, s) ∧
        p.namespaces = s.done := by
  unfold load
  rcases (Load.document source (source.size + 3) [] root).run {} with ⟨e | n, s'⟩
  · constructor
    · intro h
      cases h
    · rintro ⟨h, _⟩
      cases h
  · constructor
    · intro h
      cases h
      exact ⟨rfl, rfl⟩
    · rintro ⟨h, hdone⟩
      cases h
      cases p
      cases hdone
      rfl

theorem load_eq_ok_iff :
    (load source root).1 = .ok p ↔
      ∃ s, (Load.document source (source.size + 3) [] root).run {} = (.ok p.root, s) ∧
        p.namespaces = s.done := by
  constructor
  · intro h
    exact ⟨(load source root).2, load_eq_iff.mp (Prod.ext h rfl)⟩
  · rintro ⟨s, h⟩
    rw [load_eq_iff.mpr h]

theorem loadedFrom_of_load (h : (load source root).1 = .ok p) : LoadedFrom source root p := by
  obtain ⟨s, hrun, hdone⟩ := load_eq_ok_iff.mp h
  obtain ⟨hgrows, hfind⟩ := Load.document_sound (s := {}) .nil hrun
  obtain ⟨more, hmore, hnew⟩ := hgrows.added
  obtain ⟨hmem, hpath⟩ := mem_of_findIn hfind
  refine ⟨hdone ▸ hgrows.loaded, hdone ▸ hmem, hpath, ?_⟩
  intro n hn
  rw [hdone, hmore] at hn
  exact (hnew n hn).2

/-- Each document of a loaded list loads as a root, from documents of the list. -/
theorem exists_load_of_mem {known : List Namespace} (h : Loaded source known) {n : Namespace}
    (hn : n ∈ known) (hsize : known.length ≤ source.size + 3) :
    ∃ q, (load source n.path).1 = .ok q ∧ q.root = n ∧ ∀ m ∈ q.namespaces, m ∈ known := by
  obtain ⟨s, hrun, _, hmem⟩ :=
    Load.document_complete (s := {}) h hn hsize (fun _ _ => List.not_mem_nil) .nil
  refine ⟨⟨n, s.done⟩, load_eq_ok_iff.mpr ⟨s, hrun, rfl⟩, rfl, ?_⟩
  intro m hm
  rcases hmem m hm with hm | hm
  · cases hm
  · exact hm

end Program

theorem Loaded.isLocated {source : Source} {p : Program} (h : Loaded source p.namespaces) :
    p.IsLocated :=
  ⟨h.nodup_path, fun _ hn => h.declares hn⟩

end RecordSchema
