import RecordSchema.Proofs.Program.Insertion

/-!
# Scopes in tables

A scope can be kept in two tables: under each kind, one has the names in the order in which they
came first, and the other has the definitions by name. They are changed one after the other, and an
update goes through the names of the other scope kind by kind while it changes its own scope, which
may be the same one. After any edits the two tables go together all the same, and they show what a
scope lists that has been edited in the same way.
-/

namespace RecordSchema

open Text

namespace Scope

/-- Under each kind the names in order, and the definitions by name. -/
structure Tables where
  order : Keyword → List Text
  entries : Keyword → Text → Option Definition

namespace Tables

def empty : Tables := ⟨fun _ => [], fun _ _ => none⟩

/-- Enters a definition under its name, and the name behind the others if it has no definition
yet. -/
def set (t : Tables) (d : Definition) : Tables where
  order :=
    if (t.entries d.keyword d.name).isSome then t.order
    else Function.update t.order d.keyword (t.order d.keyword ++ [d.name])
  entries :=
    Function.update t.entries d.keyword (Function.update (t.entries d.keyword) d.name (some d))

/-- The definitions of a kind, found by going through its names. -/
def ofKind (t : Tables) (k : Keyword) : List Definition := (t.order k).filterMap (t.entries k)

/-- Whether the tables of a kind go together: no name comes twice, and the names are those that
have a definition. -/
structure Consistent (t : Tables) (k : Keyword) : Prop where
  nodup_order : (t.order k).Nodup
  mem_order_iff (name : Text) : name ∈ t.order k ↔ (t.entries k name).isSome = true

/-- Whether tables show what a scope lists. -/
structure Indexes (t : Tables) (s : Scope) : Prop where
  distinct : s.Distinct
  order_eq (k : Keyword) : t.order k = s.names k
  entries_eq (k : Keyword) (name : Text) : t.entries k name = s.get? k name

section Indexes

variable {t : Tables} {s : Scope}

theorem indexes_empty : empty.Indexes Scope.empty :=
  ⟨List.nodup_nil, fun _ => rfl, fun _ _ => rfl⟩

/-- Tables tell scopes apart by their kinds alone. -/
theorem Indexes.of_ofKind_eq {s' : Scope} (h : t.Indexes s) (hdistinct : s'.Distinct)
    (hkinds : ∀ k, s.ofKind k = s'.ofKind k) : t.Indexes s' where
  distinct := hdistinct
  order_eq k := by
    obtain ⟨hnames, _, _⟩ := agreeOn_of_ofKind_eq (hkinds k)
    rw [h.order_eq, hnames]
  entries_eq k name := by
    obtain ⟨_, _, hget⟩ := agreeOn_of_ofKind_eq (hkinds k)
    rw [h.entries_eq, hget]

theorem Indexes.consistent (h : t.Indexes s) (k : Keyword) : t.Consistent k where
  nodup_order := by
    rw [h.order_eq]
    exact h.distinct.nodup_names k
  mem_order_iff name := by rw [h.order_eq, h.entries_eq, mem_names_iff_isSome_get?]

theorem Indexes.ofKind_eq (h : t.Indexes s) (k : Keyword) : t.ofKind k = s.ofKind k := by
  have hfound := congrArg (List.filterMap id) (h.distinct.map_some_ofKind k)
  rw [List.filterMap_map, List.filterMap_map] at hfound
  rw [ofKind, h.order_eq, funext (h.entries_eq k)]
  exact hfound.symm.trans List.filterMap_some

theorem entries_set (t : Tables) (d : Definition) (k : Keyword) (name : Text) :
    (t.set d).entries k name = if d.named = ⟨k, name⟩ then some d else t.entries k name := by
  simp only [set]
  by_cases hk : k = d.keyword
  · subst hk
    rw [Function.update_self]
    by_cases hname : name = d.name
    · subst hname
      rw [Function.update_self]
      exact (if_pos rfl).symm
    · rw [Function.update_of_ne hname, if_neg]
      exact fun hd => hname (congrArg Key.name hd).symm
  · rw [Function.update_of_ne hk, if_neg]
    exact fun hd => hk (congrArg Key.keyword hd).symm

theorem Indexes.set (h : t.Indexes s) (d : Definition) : (t.set d).Indexes (s.set d) where
  distinct := h.distinct.set d
  order_eq k := by
    have hknown : (t.entries d.keyword d.name).isSome = true ↔ d.name ∈ s.names d.keyword := by
      rw [h.entries_eq, mem_names_iff_isSome_get?]
    simp only [Tables.set, hknown]
    by_cases hk : k = d.keyword
    · subst hk
      rw [names_set_self, ← h.order_eq]
      split
      · rfl
      · rw [Function.update_self]
    · have hnames : (s.set d).names k = s.names k := by
        rw [names, ofKind_set, if_neg (Ne.symm hk), names]
      rw [hnames]
      split
      · exact h.order_eq k
      · rw [Function.update_of_ne hk]
        exact h.order_eq k
  entries_eq k name := by rw [entries_set, get?_set, h.entries_eq]

theorem Indexes.foldl_set (h : t.Indexes s) (ds : List Definition) :
    (ds.foldl Tables.set t).Indexes (ds.foldl Scope.set s) := by
  induction ds generalizing t s with
  | nil => exact h
  | cons d rest ih => exact ih (h.set d)

end Indexes

section Edits

variable {ι : Type} [DecidableEq ι]

/-- Enters definitions in one of several tables. -/
def enterAll (tables : ι → Tables) (i : ι) (ds : List Definition) : ι → Tables :=
  Function.update tables i (ds.foldl set (tables i))

/-- The tables after an edit. An update reads the other tables again for each kind. -/
def apply (tables : ι → Tables) : Edit ι → ι → Tables
  | .set i d => enterAll tables i [d]
  | .update i j =>
      Keyword.all.foldl (fun tables k => enterAll tables i ((tables j).ofKind k)) tables

/-- The tables after edits, all of which are empty at first. -/
def run (edits : List (Edit ι)) : ι → Tables := edits.foldl apply fun _ => empty

variable {tables : ι → Tables} {scopes : ι → Scope} (h : ∀ i, (tables i).Indexes (scopes i))

include h

theorem indexes_enterAll (i : ι) (ds : List Definition) (l : ι) :
    (enterAll tables i ds l).Indexes
      (Function.update scopes i (ds.foldl Scope.set (scopes i)) l) := by
  unfold enterAll
  by_cases hl : l = i
  · subst hl
    rw [Function.update_self, Function.update_self]
    exact (h l).foldl_set ds
  · rw [Function.update_of_ne hl, Function.update_of_ne hl]
    exact h l

/-- Reading the other tables again makes no difference, even if they are those that are changed:
the kinds that are still to come are as they were. -/
theorem indexes_foldl_kinds (i j : ι) {ks : List Keyword} (hks : ks.Nodup) (l : ι) :
    (ks.foldl (fun tables k => enterAll tables i ((tables j).ofKind k)) tables l).Indexes
      (Function.update scopes i ((ks.flatMap (scopes j).ofKind).foldl Scope.set (scopes i)) l) := by
  induction ks using List.reverseRecOn generalizing l with
  | nil =>
      rw [List.flatMap_nil, List.foldl_nil, List.foldl_nil, Function.update_eq_self]
      exact h l
  | append_singleton ks k ih =>
      obtain ⟨hks, -, hnew⟩ := List.nodup_append'.mp hks
      have hk : k ∉ ks := fun hmem => hnew hmem (List.mem_singleton_self k)
      have hbefore := ih hks
      have hkept : ((ks.flatMap (scopes j).ofKind).filter fun d => d.keyword == k) = [] := by
        rw [List.filter_flatMap, List.flatMap_eq_nil_iff]
        intro k' hk'
        rw [filter_ofKind, if_neg]
        rintro rfl
        exact hk hk'
      have hread :
          (ks.foldl (fun tables k => enterAll tables i ((tables j).ofKind k)) tables j).ofKind k =
            (scopes j).ofKind k := by
        rw [(hbefore j).ofKind_eq]
        by_cases hj : j = i
        · subst hj
          rw [Function.update_self, ofKind_foldl_set, hkept, List.foldl_nil]
        · rw [Function.update_of_ne hj]
      have hafter := indexes_enterAll hbefore i ((scopes j).ofKind k) l
      rw [Function.update_self, Function.update_idem, ← List.foldl_append] at hafter
      rw [List.foldl_concat, hread, List.flatMap_append, List.flatMap_singleton]
      exact hafter

theorem indexes_apply (e : Edit ι) (l : ι) : (apply tables e l).Indexes (e.apply scopes l) := by
  cases e with
  | set i d => exact indexes_enterAll h i [d] l
  | update i j =>
      have hindexes := indexes_foldl_kinds h i j (by decide : Keyword.all.Nodup) l
      rw [Edit.apply, Edit.change, Edit.target]
      by_cases hl : l = i
      · subst hl
        rw [Function.update_self] at hindexes ⊢
        refine hindexes.of_ofKind_eq ((h l).distinct.update (scopes j)) fun k => ?_
        have hbyKind := filter_byKind (scopes j) k
        rw [byKind] at hbyKind
        rw [ofKind_foldl_set, hbyKind, update, ofKind_foldl_set]
        rfl
      · rw [Function.update_of_ne hl] at hindexes ⊢
        exact hindexes

theorem indexes_foldl_apply (edits : List (Edit ι)) (i : ι) :
    (edits.foldl apply tables i).Indexes (edits.foldl Edit.apply scopes i) := by
  induction edits generalizing tables scopes with
  | nil => exact h i
  | cons e rest ih => exact ih (indexes_apply h e)

omit h

/-- After any edits the tables of each kind go together, and they show the names, the definitions
and what is found under a name as the scope of these edits lists them. -/
theorem indexes_run (edits : List (Edit ι)) (i : ι) (k : Keyword) :
    (run edits i).Consistent k ∧ (run edits i).order k = (Edit.run edits i).names k ∧
      (run edits i).ofKind k = (Edit.run edits i).ofKind k ∧
      ∀ name, (run edits i).entries k name = (Edit.run edits i).get? k name := by
  have h := indexes_foldl_apply (fun _ : ι => indexes_empty) edits i
  exact ⟨h.consistent k, h.order_eq k, h.ofKind_eq k, h.entries_eq k⟩

end Edits

end Tables

end Scope

end RecordSchema
