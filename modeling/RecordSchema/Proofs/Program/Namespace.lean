import Mathlib.Data.List.Nodup
import RecordSchema.Program.Load

/-!
# Namespaces in import order

The namespace of a document depends on the text of the document and on the namespaces of the
documents it imports, and on nothing else. A list of namespaces in import order is therefore
determined by the documents: two such lists agree on every path that they share.
-/

namespace RecordSchema

open Text

namespace Definition

/-- The kind and the name of a definition. -/
def named (d : Definition) : Key := ⟨d.keyword, d.name⟩

theorem isNamed_iff {d e : Definition} :
    e.isNamed d.keyword d.name = true ↔ e.named = d.named := by
  simp [isNamed, named]

end Definition

namespace Scope

theorem mem_setIn {d e : Definition} {ds : List Definition} (h : e ∈ setIn d ds) :
    e = d ∨ e ∈ ds := by
  induction ds with
  | nil => exact Or.inl (List.mem_singleton.mp h)
  | cons a rest ih =>
      rw [setIn] at h
      split at h
      · rcases List.mem_cons.mp h with h | h
        · exact Or.inl h
        · exact Or.inr (List.mem_cons_of_mem a h)
      · rcases List.mem_cons.mp h with rfl | h
        · exact Or.inr List.mem_cons_self
        · exact (ih h).imp_right (List.mem_cons_of_mem a)

theorem mem_update {s other : Scope} {e : Definition} (h : e ∈ (s.update other).definitions) :
    e ∈ s.definitions ∨ e ∈ other.definitions := by
  unfold update at h
  generalize other.definitions = ds at h ⊢
  induction ds generalizing s with
  | nil => exact Or.inl h
  | cons d rest ih =>
      rcases ih (s := s.set d) h with h | h
      · rcases mem_setIn h with rfl | h
        · exact Or.inr List.mem_cons_self
        · exact Or.inl h
      · exact Or.inr (List.mem_cons_of_mem d h)

theorem mem_of_get?_eq_some {s : Scope} {k : Keyword} {name : Text} {d : Definition}
    (h : s.get? k name = some d) : d ∈ s.definitions ∧ d.keyword = k ∧ d.name = name := by
  have hnamed := List.find?_some h
  simp only [Definition.isNamed, Bool.and_eq_true, beq_iff_eq] at hnamed
  exact ⟨List.mem_of_find?_eq_some h, hnamed.1, hnamed.2⟩

/-- No two definitions of a scope have the same kind and name. -/
def Distinct (s : Scope) : Prop := (s.definitions.map Definition.named).Nodup

theorem map_named_setIn (d : Definition) (ds : List Definition) :
    (setIn d ds).map Definition.named =
      if d.named ∈ ds.map Definition.named then ds.map Definition.named
      else ds.map Definition.named ++ [d.named] := by
  induction ds with
  | nil => rfl
  | cons a rest ih =>
      rw [setIn]
      by_cases hnamed : a.named = d.named
      · rw [if_pos (Definition.isNamed_iff.mpr hnamed), List.map_cons, List.map_cons, hnamed,
          if_pos List.mem_cons_self]
      · rw [if_neg (fun h => hnamed (Definition.isNamed_iff.mp h)), List.map_cons, List.map_cons,
          ih]
        by_cases hmem : d.named ∈ rest.map Definition.named
        · rw [if_pos hmem, if_pos (List.mem_cons_of_mem _ hmem)]
        · have hcons : d.named ∉ a.named :: rest.map Definition.named := by
            rw [List.mem_cons]
            rintro (heq | hin)
            · exact hnamed heq.symm
            · exact hmem hin
          rw [if_neg hmem, if_neg hcons, List.cons_append]

theorem Distinct.set {s : Scope} (h : s.Distinct) (d : Definition) : (s.set d).Distinct := by
  unfold Distinct Scope.set
  rw [map_named_setIn]
  split
  · exact h
  · next hmem =>
      refine List.Nodup.append h (List.nodup_singleton _) ?_
      intro key hkey hsingle
      rw [List.mem_singleton.mp hsingle] at hkey
      exact hmem hkey

section Kinds

variable {s : Scope} {k : Keyword} {x y : Definition}

theorem mem_ofKind : x ∈ s.ofKind k ↔ x ∈ s.definitions ∧ x.keyword = k := by
  simp [ofKind]

theorem Distinct.eq_of_name_eq (h : s.Distinct) (hx : x ∈ s.ofKind k) (hy : y ∈ s.ofKind k)
    (hname : x.name = y.name) : x = y := by
  obtain ⟨hx, hkx⟩ := mem_ofKind.mp hx
  obtain ⟨hy, hky⟩ := mem_ofKind.mp hy
  refine List.inj_on_of_nodup_map h hx hy ?_
  rw [Definition.named, Definition.named, hkx, hky, hname]

theorem Distinct.get?_eq_some (h : s.Distinct) (hx : x ∈ s.ofKind k) :
    s.get? k x.name = some x := by
  obtain ⟨hmem, hk⟩ := mem_ofKind.mp hx
  cases hget : s.get? k x.name with
  | none =>
      have hnone := List.find?_eq_none.mp hget x hmem
      simp [Definition.isNamed, hk] at hnone
  | some y =>
      obtain ⟨hy, hky, hname⟩ := mem_of_get?_eq_some hget
      rw [h.eq_of_name_eq (mem_ofKind.mpr ⟨hy, hky⟩) hx hname]

end Kinds

end Scope

namespace Namespace

theorem mem_of_lookup?_eq_some {n : Namespace} {k : Keyword} {name : Text} {d : Definition}
    (h : n.lookup? k name = some d) :
    (d ∈ n.own.definitions ∨ d ∈ n.external.definitions) ∧ d.keyword = k ∧ d.name = name := by
  unfold lookup? at h
  cases ho : n.own.get? k name with
  | some e =>
      rw [ho] at h
      cases h
      obtain ⟨hmem, hk, hn⟩ := Scope.mem_of_get?_eq_some ho
      exact ⟨Or.inl hmem, hk, hn⟩
  | none =>
      rw [ho] at h
      obtain ⟨hmem, hk, hn⟩ := Scope.mem_of_get?_eq_some h
      exact ⟨Or.inr hmem, hk, hn⟩

/-- The namespace after one more import. -/
def importing (n : Namespace) (ref : Text) (imported : Namespace) : Namespace :=
  { n with
    imports := n.imports ++ [ref]
    external := (n.external.update imported.external).update imported.own }

/-- The namespace after one more definition. -/
def defining (n : Namespace) (e : Entry) : Namespace :=
  { n with own := n.own.set (Load.definition n e) }

variable (find : Text → Option Namespace)

/-- The namespace after the references that have not been imported yet, where `find` gives the
namespaces of documents. -/
def takeImports : List Text → Namespace → Option Namespace
  | [], n => some n
  | ref :: rest, n =>
    if n.imports.contains ref then takeImports rest n
    else do
      let imported ← find (Source.resolve n.path ref)
      takeImports rest (n.importing ref imported)

/-- The namespace after the entries of a document, in order. -/
def takeEntries : List Entry → Namespace → Option Namespace
  | [], n => some n
  | e :: rest, n =>
    if e.key.keyword = .imports then do
      let refs ← (e.imports n.path).toOption
      let n ← takeImports find refs n
      takeEntries rest n
    else if Load.hasShape e then takeEntries rest (n.defining e)
    else none

variable {find}

/-- What holds of a namespace and is kept by each import holds after all of them. -/
theorem takeImports_induction {P : Namespace → Prop} {refs : List Text} {n n' : Namespace}
    (hstep : ∀ n ref m, P n → find (Source.resolve n.path ref) = some m → P (n.importing ref m))
    (h : takeImports find refs n = some n') (hn : P n) : P n' := by
  induction refs generalizing n with
  | nil =>
      cases h
      exact hn
  | cons ref rest ih =>
      rw [takeImports] at h
      split at h
      · exact ih h hn
      · obtain ⟨m, hm, h⟩ := Option.bind_eq_some_iff.mp h
        exact ih h (hstep n ref m hn hm)

/-- What holds of a namespace and is kept by each import and each definition holds after all
entries. -/
theorem takeEntries_induction {P : Namespace → Prop} {es : List Entry} {n n' : Namespace}
    (himport : ∀ n ref m, P n → find (Source.resolve n.path ref) = some m → P (n.importing ref m))
    (hdefine : ∀ n, ∀ e ∈ es, P n → e.key.keyword ≠ .imports → P (n.defining e))
    (h : takeEntries find es n = some n') (hn : P n) : P n' := by
  induction es generalizing n with
  | nil =>
      cases h
      exact hn
  | cons e rest ih =>
      have hrest : ∀ n, ∀ e ∈ rest, P n → e.key.keyword ≠ .imports → P (n.defining e) :=
        fun n e' he' => hdefine n e' (List.mem_cons_of_mem e he')
      rw [takeEntries] at h
      split at h
      · obtain ⟨refs, _, h⟩ := Option.bind_eq_some_iff.mp h
        obtain ⟨n₁, hn₁, h⟩ := Option.bind_eq_some_iff.mp h
        exact ih hrest h (takeImports_induction himport hn₁ hn)
      · next hk =>
          split at h
          · exact ih hrest h (hdefine n e List.mem_cons_self hn hk)
          · cases h

section Agreement

variable {find' : Text → Option Namespace}

theorem takeImports_mono (hle : ∀ x m, find x = some m → find' x = some m) {refs : List Text}
    {n n' : Namespace} (h : takeImports find refs n = some n') :
    takeImports find' refs n = some n' := by
  induction refs generalizing n with
  | nil => exact h
  | cons ref rest ih =>
      rw [takeImports] at h ⊢
      split at h
      · next hc =>
          rw [if_pos hc]
          exact ih h
      · next hc =>
          rw [if_neg hc]
          obtain ⟨m, hm, h⟩ := Option.bind_eq_some_iff.mp h
          exact Option.bind_eq_some_iff.mpr ⟨m, hle _ _ hm, ih h⟩

theorem takeEntries_mono (hle : ∀ x m, find x = some m → find' x = some m) {es : List Entry}
    {n n' : Namespace} (h : takeEntries find es n = some n') :
    takeEntries find' es n = some n' := by
  induction es generalizing n with
  | nil => exact h
  | cons e rest ih =>
      rw [takeEntries] at h ⊢
      split at h
      · next hk =>
          rw [if_pos hk]
          obtain ⟨refs, hrefs, h⟩ := Option.bind_eq_some_iff.mp h
          obtain ⟨n₁, hn₁, h⟩ := Option.bind_eq_some_iff.mp h
          refine Option.bind_eq_some_iff.mpr ⟨refs, hrefs, ?_⟩
          exact Option.bind_eq_some_iff.mpr ⟨n₁, takeImports_mono hle hn₁, ih h⟩
      · next hk =>
          rw [if_neg hk]
          split at h
          · next hs =>
              rw [if_pos hs]
              exact ih h
          · cases h

theorem takeImports_agree
    (hagree : ∀ x m m', find x = some m → find' x = some m' → m = m') {refs : List Text}
    {n a b : Namespace} (ha : takeImports find refs n = some a)
    (hb : takeImports find' refs n = some b) : a = b := by
  induction refs generalizing n with
  | nil =>
      cases ha
      cases hb
      rfl
  | cons ref rest ih =>
      rw [takeImports] at ha hb
      split at ha
      · next hc =>
          rw [if_pos hc] at hb
          exact ih ha hb
      · next hc =>
          rw [if_neg hc] at hb
          obtain ⟨m, hm, ha⟩ := Option.bind_eq_some_iff.mp ha
          obtain ⟨m', hm', hb⟩ := Option.bind_eq_some_iff.mp hb
          cases hagree _ m m' hm hm'
          exact ih ha hb

theorem takeEntries_agree
    (hagree : ∀ x m m', find x = some m → find' x = some m' → m = m') {es : List Entry}
    {n a b : Namespace} (ha : takeEntries find es n = some a)
    (hb : takeEntries find' es n = some b) : a = b := by
  induction es generalizing n with
  | nil =>
      cases ha
      cases hb
      rfl
  | cons e rest ih =>
      rw [takeEntries] at ha hb
      split at ha
      · next hk =>
          rw [if_pos hk] at hb
          obtain ⟨refs, hrefs, ha⟩ := Option.bind_eq_some_iff.mp ha
          obtain ⟨refs', hrefs', hb⟩ := Option.bind_eq_some_iff.mp hb
          cases hrefs.symm.trans hrefs'
          obtain ⟨n₁, hn₁, ha⟩ := Option.bind_eq_some_iff.mp ha
          obtain ⟨n₂, hn₂, hb⟩ := Option.bind_eq_some_iff.mp hb
          cases takeImports_agree hagree hn₁ hn₂
          exact ih ha hb
      · next hk =>
          rw [if_neg hk] at hb
          split at ha
          · next hs =>
              rw [if_pos hs] at hb
              exact ih ha hb
          · cases ha

end Agreement

end Namespace

end RecordSchema
