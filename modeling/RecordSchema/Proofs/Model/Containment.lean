import Mathlib.Logic.Relation
import RecordSchema.Proofs.Model.Entry
import RecordSchema.Store.Library

/-!
# Databases inside databases

An entry is refused if the database that its type stands for is the one it belongs to, and nothing
more is checked. Since a document finds its own databases before imported ones, and imports do not
go round in a circle, databases that contain each other are declared by one document. Such circles
are therefore the circles in which the databases of a document give each other's names as types.
-/

namespace RecordSchema

open Text Relation

namespace DatabaseEntry

variable {n : Namespace} {owner sub : Definition} {pair : Yaml.Tree × Yaml.Tree} {d : Declared}
variable {type key : Text} {e e' : DatabaseEntry}

theorem back_of_lookup? (hsub : n.lookup? .database e.backingType = some sub)
    (h : back n owner d e = .ok e') :
    e'.kind = .subdatabase ∧ e'.backingKey = sub.key ∧ sub.key ≠ owner.key := by
  unfold back at h
  rw [hsub] at h
  simp only at h
  split at h
  · cases h
  · next hne =>
      split at h
      · cases h
      · cases h
        exact ⟨rfl, rfl, hne⟩

/-- An entry holds a database exactly when its type finds one. -/
theorem isSubdatabase_iff (h : resolve n owner pair = .ok e)
    (hd : declared n owner pair = .ok (d, type)) :
    (e.kind = .subdatabase ∧ e.backingKey = key) ↔
      ∃ sub, n.lookup? .database type = some sub ∧ sub.key = key := by
  obtain ⟨d', type', hd', _, hback⟩ := resolve_eq_ok_iff.mp h
  cases hd.symm.trans hd'
  constructor
  · rintro ⟨hkind, rfl⟩
    cases backed_of_back hback with
    | subdatabase hsub => exact ⟨_, hsub, rfl⟩
    | collection _ _ => cases hkind
    | resource _ _ => cases hkind
  · rintro ⟨sub, hsub, rfl⟩
    obtain ⟨hkind, hkey, _⟩ := back_of_lookup? hsub hback
    exact ⟨hkind, hkey⟩

theorem key_ne_of_lookup? (h : resolve n owner pair = .ok e)
    (hd : declared n owner pair = .ok (d, type)) (hsub : n.lookup? .database type = some sub) :
    sub.key ≠ owner.key := by
  obtain ⟨d', type', hd', _, hback⟩ := resolve_eq_ok_iff.mp h
  cases hd.symm.trans hd'
  exact (back_of_lookup? hsub hback).2.2

end DatabaseEntry

namespace Namespace

/-- The types that the entries of a database give, by themselves or by their classes. -/
def entryTypes (n : Namespace) (x : Definition) : List Text :=
  (x.body.pairs?.getD []).filterMap fun pair =>
    (DatabaseEntry.declared n x pair).toOption.map Prod.snd

/-- Whether a database of a document gives the name of a database of the same document as a type. -/
def Mentions (n : Namespace) (a b : Text) : Prop :=
  (∃ x ∈ n.own.ofKind .database, x.name = a ∧ b ∈ n.entryTypes x) ∧ b ∈ n.own.names .database

instance (n : Namespace) (a b : Text) : Decidable (n.Mentions a b) :=
  inferInstanceAs (Decidable (_ ∧ _))

theorem mem_entryTypes {n : Namespace} {x : Definition} {pairs : List (Yaml.Tree × Yaml.Tree)}
    (h : x.body.pairs? = some pairs) {type : Text} :
    type ∈ n.entryTypes x ↔
      ∃ pair ∈ pairs, ∃ d, DatabaseEntry.declared n x pair = .ok (d, type) := by
  simp only [entryTypes, h, Option.getD_some, List.mem_filterMap, Option.map_eq_some_iff]
  constructor
  · rintro ⟨pair, hpair, ⟨d, _⟩, hd, rfl⟩
    exact ⟨pair, hpair, d, eq_ok_of_toOption_eq_some hd⟩
  · rintro ⟨pair, hpair, d, hd⟩
    refine ⟨pair, hpair, (d, type), ?_, rfl⟩
    rw [hd]
    rfl

end Namespace

open Namespace

namespace Database

variable {n : Namespace} {x : Definition} {b : Database}

/-- The databases that a resolved database holds are those its types find. -/
theorem exists_entry_iff (h : resolve n x = .ok b) {key : Text} :
    (∃ e ∈ b.entries, e.kind = .subdatabase ∧ e.backingKey = key) ↔
      ∃ type ∈ n.entryTypes x, ∃ sub, n.lookup? .database type = some sub ∧ sub.key = key := by
  obtain ⟨pairs, hpairs, hall⟩ := resolve_eq_ok h
  constructor
  · rintro ⟨e, he, hkind⟩
    obtain ⟨pair, hpair, hresolve⟩ := exists_of_forall₂_left hall.flip e he
    obtain ⟨d, type, hd, _, _⟩ := DatabaseEntry.resolve_eq_ok_iff.mp hresolve
    exact ⟨type, (mem_entryTypes hpairs).mpr ⟨pair, hpair, d, hd⟩,
      (DatabaseEntry.isSubdatabase_iff hresolve hd).mp hkind⟩
  · rintro ⟨type, htype, hsub⟩
    obtain ⟨pair, hpair, d, hd⟩ := (mem_entryTypes hpairs).mp htype
    obtain ⟨e, he, hresolve⟩ := exists_of_forall₂_left hall pair hpair
    exact ⟨e, he, (DatabaseEntry.isSubdatabase_iff hresolve hd).mpr hsub⟩

theorem lookup?_ne_of_mem_entryTypes (h : resolve n x = .ok b) {type : Text}
    (htype : type ∈ n.entryTypes x) : n.lookup? .database type ≠ some x := by
  obtain ⟨pairs, hpairs, hall⟩ := resolve_eq_ok h
  obtain ⟨pair, hpair, d, hd⟩ := (mem_entryTypes hpairs).mp htype
  obtain ⟨e, _, hresolve⟩ := exists_of_forall₂_left hall pair hpair
  exact fun hsub => DatabaseEntry.key_ne_of_lookup? hresolve hd hsub rfl

end Database

namespace Program

/-- Whether an entry of the database `x` holds the database `y`. -/
def Contains (p : Program) (x y : Definition) : Prop :=
  (∃ n ∈ p.namespaces, x ∈ n.own.ofKind .database ∧
    ∃ b, Database.resolve n x = .ok b ∧
      ∃ e ∈ b.entries, e.kind = .subdatabase ∧ e.backingKey = y.key) ∧
    ∃ m ∈ p.namespaces, y ∈ m.own.ofKind .database

/-- The place of the document of a definition among the documents of a program. -/
def position (p : Program) (d : Definition) : Nat :=
  (p.namespaces.map Namespace.path).idxOf d.document

section Resolved

variable {source : Source} {p : Program} {m : Model} {n : Namespace} {x y : Definition}

theorem exists_database_of_resolve (h : Model.resolve p = .ok m) (hn : n ∈ p.namespaces)
    (hx : x ∈ n.own.ofKind .database) : ∃ b, Database.resolve n x = .ok b := by
  obtain ⟨hx, hk⟩ := Scope.mem_ofKind.mp hx
  have hs : (n, x) ∈ p.steps := mem_steps.mpr ⟨hn, hx, by rw [hk]; decide⟩
  obtain ⟨r, hr⟩ := (Model.resolve_eq_ok_iff.mp h).2.1 (n, x) hs
  simp only [Definition.resolve?, hk] at hr
  obtain ⟨b, hb, _⟩ := map_eq_ok_iff.mp hr
  exact ⟨b, hb⟩

variable (hloaded : Loaded source p.namespaces) (h : Model.resolve p = .ok m)

include hloaded h

theorem eq_of_key_eq {m' : Namespace} (hn : n ∈ p.namespaces) (hm : m' ∈ p.namespaces)
    (hx : x ∈ n.own.ofKind .database) (hy : y ∈ m'.own.ofKind .database) (hkey : x.key = y.key) :
    x = y := by
  obtain ⟨hx, hkx⟩ := Scope.mem_ofKind.mp hx
  obtain ⟨hy, hky⟩ := Scope.mem_ofKind.mp hy
  obtain ⟨hdoc, hname⟩ := (key_eq_iff hloaded.isLocated (Model.nodup_name_of_resolve h) ⟨n, hn, hx⟩
    ⟨m', hm, hy⟩).mp hkey
  exact eq_of_document_eq hloaded.isLocated ⟨n, hn, hx⟩ ⟨m', hm, hy⟩ (hkx.trans hky.symm) hdoc hname

/-- A database holds exactly the databases that its types find in its document. -/
theorem contains_iff (hn : n ∈ p.namespaces) (hx : x ∈ n.own.ofKind .database) :
    p.Contains x y ↔ ∃ type ∈ n.entryTypes x, n.lookup? .database type = some y := by
  obtain ⟨b, hb⟩ := exists_database_of_resolve h hn hx
  constructor
  · rintro ⟨⟨n', hn', hx', b', hb', hentry⟩, m', hm, hy⟩
    have hnn := namespace_eq hloaded.isLocated hn hn' (Scope.mem_ofKind.mp hx).1
      (Scope.mem_ofKind.mp hx').1 rfl
    subst hnn
    obtain ⟨type, htype, sub, hsub, hkey⟩ := (Database.exists_entry_iff hb').mp hentry
    obtain ⟨s, hs, hmem, hk, _⟩ := hloaded.mem_own_of_lookup? hn hsub
    have heq := eq_of_key_eq hloaded h hs hm (Scope.mem_ofKind.mpr ⟨hmem, hk⟩) hy hkey
    exact ⟨type, htype, heq ▸ hsub⟩
  · rintro ⟨type, htype, hsub⟩
    obtain ⟨s, hs, hmem, hk, _⟩ := hloaded.mem_own_of_lookup? hn hsub
    exact ⟨⟨n, hn, hx, b, hb, (Database.exists_entry_iff hb).mpr ⟨type, htype, y, hsub, rfl⟩⟩,
      s, hs, Scope.mem_ofKind.mpr ⟨hmem, hk⟩⟩

theorem not_contains_self (x : Definition) : ¬ p.Contains x x := by
  intro hself
  obtain ⟨n, hn, hx, _⟩ := hself.1
  obtain ⟨type, htype, hsub⟩ := (contains_iff hloaded h hn hx).mp hself
  obtain ⟨b, hb⟩ := exists_database_of_resolve h hn hx
  exact Database.lookup?_ne_of_mem_entryTypes hb htype hsub

/-- What a database holds is declared by its own document or by an earlier one. -/
theorem position_le_of_contains (hxy : p.Contains x y) : p.position y ≤ p.position x := by
  obtain ⟨n, hn, hx, _⟩ := hxy.1
  obtain ⟨type, _, hsub⟩ := (contains_iff hloaded h hn hx).mp hxy
  obtain ⟨hmem, _⟩ := mem_of_lookup?_eq_some hsub
  rw [position, position, (hloaded.declares hn).document_eq x (Scope.mem_ofKind.mp hx).1]
  rcases hmem with hown | hexternal
  · rw [(hloaded.declares hn).document_eq y hown]
  · obtain ⟨s, hs, hy, hlt⟩ := hloaded.exists_earlier_of_mem_external hn y hexternal
    rw [(hloaded.declares hs).document_eq y hy]
    exact hlt.le

theorem position_le_of_transGen (hxy : TransGen p.Contains x y) : p.position y ≤ p.position x := by
  induction hxy with
  | single hxy => exact position_le_of_contains hloaded h hxy
  | tail _ hyz ih => exact (position_le_of_contains hloaded h hyz).trans ih

omit h in
/-- A database at the position of a document is one of that document. -/
theorem mem_own_of_position_eq (hn : n ∈ p.namespaces) (hx : x ∈ n.own.ofKind .database)
    {s : Namespace} (hs : s ∈ p.namespaces) (hy : y ∈ s.own.ofKind .database)
    (hpos : p.position y = p.position x) : y ∈ n.own.ofKind .database := by
  rw [position, position, (hloaded.declares hn).document_eq x (Scope.mem_ofKind.mp hx).1,
    (hloaded.declares hs).document_eq y (Scope.mem_ofKind.mp hy).1] at hpos
  have hpath := (List.idxOf_inj (List.mem_map_of_mem hs)).mp hpos
  rwa [← List.inj_on_of_nodup_map hloaded.nodup_path hs hn hpath]

/-- Among the databases of one document those are held whose names are given as types. -/
theorem contains_iff_mentions (hn : n ∈ p.namespaces) (hx : x ∈ n.own.ofKind .database)
    (hy : y ∈ n.own.ofKind .database) : p.Contains x y ↔ n.Mentions x.name y.name := by
  have hdistinct := (hloaded.declares hn).distinct
  have hlookup : n.lookup? .database y.name = some y := by
    rw [lookup?, hdistinct.get?_eq_some hy]
  rw [contains_iff hloaded h hn hx]
  constructor
  · rintro ⟨type, htype, hsub⟩
    obtain ⟨_, _, rfl⟩ := mem_of_lookup?_eq_some hsub
    exact ⟨⟨x, hx, rfl, htype⟩, List.mem_map_of_mem hy⟩
  · rintro ⟨⟨x', hx', hname, htype⟩, _⟩
    cases hdistinct.eq_of_name_eq hx' hx hname
    exact ⟨y.name, htype, hlookup⟩

/-- A way from a document's database to one at the same position does not leave the document. -/
theorem transGen_mentions_of_contains (hn : n ∈ p.namespaces) (hx : x ∈ n.own.ofKind .database)
    (hpos : p.position y = p.position x) (hxy : TransGen p.Contains x y) :
    TransGen n.Mentions x.name y.name := by
  induction hxy using TransGen.head_induction_on with
  | single hxy =>
      obtain ⟨s, hs, hy⟩ := hxy.2
      have hy := mem_own_of_position_eq hloaded hn hx hs hy hpos
      exact .single ((contains_iff_mentions hloaded h hn hx hy).mp hxy)
  | @head x z hxz hzy ih =>
      have hle := position_le_of_contains hloaded h hxz
      have hle' := position_le_of_transGen hloaded h hzy
      obtain ⟨s, hs, hz⟩ := hxz.2
      have hz := mem_own_of_position_eq hloaded hn hx hs hz (by omega)
      exact .head ((contains_iff_mentions hloaded h hn hx hz).mp hxz) (ih hz (by omega))

theorem transGen_contains_of_mentions (hn : n ∈ p.namespaces) (hx : x ∈ n.own.ofKind .database)
    {b : Text} (hab : TransGen n.Mentions x.name b) :
    ∃ y ∈ n.own.ofKind .database, y.name = b ∧ TransGen p.Contains x y := by
  have hstep : ∀ {z c}, z ∈ n.own.ofKind .database → n.Mentions z.name c →
      ∃ y ∈ n.own.ofKind .database, y.name = c ∧ p.Contains z y := by
    intro z c hz hc
    obtain ⟨y, hy, rfl⟩ := List.mem_map.mp hc.2
    exact ⟨y, hy, rfl, (contains_iff_mentions hloaded h hn hz hy).mpr hc⟩
  induction hab with
  | single hab =>
      obtain ⟨y, hy, hname, hxy⟩ := hstep hx hab
      exact ⟨y, hy, hname, .single hxy⟩
  | tail _ hbc ih =>
      obtain ⟨z, hz, rfl, hxz⟩ := ih
      obtain ⟨y, hy, hname, hzy⟩ := hstep hz hbc
      exact ⟨y, hy, hname, hxz.tail hzy⟩

end Resolved

/-- In a resolved program no database holds itself directly, and databases that hold each other are
of one document. The containment of databases is acyclic exactly when in no document databases give
each other's names as types in a circle. -/
theorem acyclic_contains_iff {source : Source} {root : Text} {p : Program} {m : Model}
    (h : (load source root).1 = .ok p) (hm : Model.resolve p = .ok m) :
    (∀ x, ¬ p.Contains x x) ∧
      (∀ x y, TransGen p.Contains x y → TransGen p.Contains y x → x.document = y.document) ∧
      ((∀ x, ¬ TransGen p.Contains x x) ↔ ∀ n ∈ p.namespaces, ∀ a, ¬ TransGen n.Mentions a a) := by
  have hloaded := (loadedFrom_of_load h).loaded
  refine ⟨not_contains_self hloaded hm, ?_, ?_⟩
  · intro x y hxy hyx
    have hle := position_le_of_transGen hloaded hm hxy
    have hle' := position_le_of_transGen hloaded hm hyx
    obtain ⟨_, ⟨⟨n, hn, hx, _⟩, _⟩, _⟩ := TransGen.head'_iff.mp hxy
    obtain ⟨_, ⟨⟨s, hs, hy, _⟩, _⟩, _⟩ := TransGen.head'_iff.mp hyx
    have hy := mem_own_of_position_eq hloaded hn hx hs hy (by omega)
    rw [(hloaded.declares hn).document_eq x (Scope.mem_ofKind.mp hx).1,
      (hloaded.declares hn).document_eq y (Scope.mem_ofKind.mp hy).1]
  · constructor
    · intro hacyclic n hn a haa
      obtain ⟨_, ⟨⟨x, hx, rfl, _⟩, _⟩, _⟩ := TransGen.head'_iff.mp haa
      obtain ⟨y, hy, hname, hxy⟩ := transGen_contains_of_mentions hloaded hm hn hx haa
      cases (hloaded.declares hn).distinct.eq_of_name_eq hy hx hname
      exact hacyclic x hxy
    · intro hacyclic x hxx
      obtain ⟨_, ⟨⟨n, hn, hx, _⟩, _⟩, _⟩ := TransGen.head'_iff.mp hxx
      exact hacyclic n hn x.name (transGen_mentions_of_contains hloaded hm hn hx rfl hxx)

/-- Two databases that hold each other, and a third one around an imported database. -/
def mutualDocuments : Library :=
  .ofList [("a.yaml", "Import: b.yaml\nDatabase A: {b: B, c: C}\nDatabase B: {a: A}\n"),
    ("b.yaml", "Object O: {f: u8}\nDatabase C: {o: O}\n")]

theorem acyclic_contains_iff_mutual :
    ∃ p m, (load mutualDocuments.source "a.yaml").1 = .ok p ∧ Model.resolve p = .ok m ∧
      (∀ x, ¬ p.Contains x x) ∧ ∃ x, TransGen p.Contains x x := by
  have hok : (do
      let p ← (load mutualDocuments.source "a.yaml").1.toOption
      let _ ← (Model.resolve p).toOption
      return (decide (p.root.Mentions "A" "B"), decide (p.root.Mentions "B" "A"))) =
        some (true, true) := by
    decide +kernel
  obtain ⟨p, hp, hok⟩ := Option.bind_eq_some_iff.mp hok
  obtain ⟨m, hm, hok⟩ := Option.bind_eq_some_iff.mp hok
  obtain ⟨hab, hba⟩ := Prod.mk.inj (Option.some.inj hok)
  have hload := eq_ok_of_toOption_eq_some hp
  have hm := eq_ok_of_toOption_eq_some hm
  obtain ⟨hself, _, hiff⟩ := acyclic_contains_iff hload hm
  refine ⟨p, m, hload, hm, hself, ?_⟩
  by_contra hnone
  have hacyclic := hiff.mp (not_exists.mp hnone) p.root (loadedFrom_of_load hload).root_mem
  exact hacyclic "A" (.head (of_decide_eq_true hab) (.single (of_decide_eq_true hba)))

end Program

end RecordSchema
