import Mathlib.Data.List.Sort
import RecordSchema.Proofs.Model.WireTag

/-!
# The fields of a resolved object

Each field of an object comes from one declaration. The fields have different names, the identifier
the reserved one, and apart from the identifier they stand by ascending tag.
-/

namespace RecordSchema

open Text

namespace Declared

theorem nodup_of_readFields {n : Namespace} {entity : Location} {seen : List Text}
    {pairs : List (Yaml.Tree × Yaml.Tree)} {ds : List Declared}
    (h : readFields n entity seen pairs = .ok ds) :
    (ds.map fun d => d.declarator.name).Nodup ∧ ∀ d ∈ ds, d.declarator.name ∉ seen := by
  induction pairs generalizing seen ds with
  | nil =>
      cases h
      simp
  | cons pair rest ih =>
      obtain ⟨d, _, h⟩ := bind_eq_ok_iff.mp h
      split at h
      · cases h
      · next hnew =>
          obtain ⟨more, hmore, h⟩ := bind_eq_ok_iff.mp h
          cases h
          obtain ⟨hnodup, hunseen⟩ := ih hmore
          have hd : d.declarator.name ∉ seen := by simpa using hnew
          rw [List.map_cons, List.nodup_cons, List.forall_mem_cons]
          refine ⟨⟨?_, hnodup⟩, hd, ?_⟩
          · intro hmem
            obtain ⟨e, he, heq⟩ := List.mem_map.mp hmem
            exact hunseen e he (heq ▸ List.mem_cons_self)
          · intro e he hin
            exact hunseen e he (List.mem_cons_of_mem _ hin)

theorem checkIdentifier_eq_ok {d d' : Declared} (h : d.checkIdentifier = .ok d') :
    d'.attributes.type = some Atomic.identifier.name ∧ d'.declarator.isRepeated = false := by
  unfold checkIdentifier at h
  split at h
  · cases h
  · next hsuffix =>
      simp only at h
      split at h
      · next htype =>
          cases h
          simp only [Bool.or_eq_true, not_or, Bool.not_eq_true] at hsuffix
          exact ⟨congrArg some htype, hsuffix.1⟩
      · cases h

/-- An identifier that is read has been checked. -/
theorem exists_checkIdentifier_of_readField {n : Namespace} {entity : Location}
    {pair : Yaml.Tree × Yaml.Tree} {d : Declared} (h : readField n entity pair = .ok d)
    (hid : WireTag.isIdentifier d = true) : ∃ d', checkIdentifier d' = .ok d := by
  obtain ⟨declarator, _, h⟩ := bind_eq_ok_iff.mp h
  obtain ⟨attributes, _, h⟩ := bind_eq_ok_iff.mp h
  simp only at h
  split at h
  · obtain ⟨d', hd', h⟩ := bind_eq_ok_iff.mp h
    split at h
    · cases h
    · cases h
      exact ⟨_, hd'⟩
  · next hnot =>
      obtain ⟨d', hd', h⟩ := bind_eq_ok_iff.mp h
      cases hd'
      split at h
      · cases h
      · cases h
        exact absurd hid hnot

theorem exists_checkIdentifier_of_readFields {n : Namespace} {entity : Location} {seen : List Text}
    {pairs : List (Yaml.Tree × Yaml.Tree)} {ds : List Declared}
    (h : readFields n entity seen pairs = .ok ds) :
    ∀ d ∈ ds, WireTag.isIdentifier d = true → ∃ d', checkIdentifier d' = .ok d := by
  induction pairs generalizing seen ds with
  | nil =>
      cases h
      exact fun _ hd => absurd hd List.not_mem_nil
  | cons pair rest ih =>
      obtain ⟨d, hd, h⟩ := bind_eq_ok_iff.mp h
      split at h
      · cases h
      · obtain ⟨more, hmore, h⟩ := bind_eq_ok_iff.mp h
        cases h
        exact List.forall_mem_cons.mpr ⟨exists_checkIdentifier_of_readField hd, ih hmore⟩

end Declared

namespace Object

variable {n : Namespace} {d : Definition} {o : Object}

theorem nodup_of_declared {ds : List Declared} (h : declared n d = .ok ds) :
    (ds.map fun d => d.declarator.name).Nodup := by
  unfold declared at h
  split at h
  · cases h
  · exact (Declared.nodup_of_readFields h).1

theorem exists_checkIdentifier_of_declared {ds : List Declared} (h : declared n d = .ok ds) :
    ∀ d ∈ ds, WireTag.isIdentifier d = true → ∃ d', Declared.checkIdentifier d' = .ok d := by
  unfold declared at h
  split at h
  · cases h
  · exact Declared.exists_checkIdentifier_of_readFields h

theorem map_name_of_resolveFields {ps : List (Declared × Int)} {fields : List Field}
    (h : resolveFields n d ps = .ok fields) :
    fields.map Field.name = ps.map fun p => p.1.declarator.name := by
  have hall := resolveFields_eq_ok_iff.mp h
  clear h
  induction hall with
  | nil => rfl
  | cons hf _ ih =>
      obtain ⟨type, hr⟩ := Declared.resolves_of_resolve_eq_ok hf.1
      rw [List.map_cons, List.map_cons, ih, hr.name_eq]

theorem isIdentifier_iff {declared : Declared} {tag : Int} {f : Field}
    (h : declared.resolve n tag = .ok f) :
    f.isIdentifier = true ↔ f.name = Field.identifierName := by
  obtain ⟨type, hr⟩ := Declared.resolves_of_resolve_eq_ok h
  rw [hr.isIdentifier_eq, hr.name_eq, WireTag.isIdentifier, beq_iff_eq]

/-- The identifier of an object is the implicit one or a declared one that has been checked. -/
theorem identifier_cases (h : resolve n d = .ok o) :
    o.identifier = Field.implicitIdentifier ∨
      ∃ declared declared' tag type, Declared.checkIdentifier declared' = .ok declared ∧
        WireTag.isIdentifier declared = true ∧
          Declared.Resolves n declared tag type o.identifier := by
  obtain ⟨ds, tags, fields, hds, _, hfields, rfl⟩ := resolve_eq_ok_iff.mp h
  cases hfind : fields.find? Field.isIdentifier with
  | none =>
      left
      simp only [ofFields, hfind, Option.getD_none]
  | some f =>
      right
      simp only [ofFields, hfind, Option.getD_some]
      obtain ⟨x, hx, hf⟩ :=
        (mem_of_resolveFields_eq_ok hfields).mp (List.mem_of_find?_eq_some hfind)
      obtain ⟨type, hr⟩ := Declared.resolves_of_resolve_eq_ok hf
      have hid : WireTag.isIdentifier x.1 = true := by
        rw [← hr.isIdentifier_eq]
        exact List.find?_some hfind
      obtain ⟨declared', hchecked⟩ :=
        exists_checkIdentifier_of_declared hds x.1 (List.of_mem_zip hx).1 hid
      exact ⟨x.1, declared', x.2, type, hchecked, hid, hr⟩

/-- An identifier is a number. -/
theorem category_identifier (h : resolve n d = .ok o) : o.identifier.category = .unsigned := by
  rcases identifier_cases h with himplicit | ⟨declared, declared', tag, type, hchecked, _, hr⟩
  · rw [himplicit]
    rfl
  · have htype := hr.type_eq
    rw [(Declared.checkIdentifier_eq_ok hchecked).1] at htype
    have hplain : TypeReference.resolve n declared.place Atomic.identifier.name =
        .ok { category := .unsigned, base := Atomic.identifier.name } := rfl
    rw [hr.category_eq, ← Except.ok.inj (hplain.symm.trans htype)]

/-- An identifier is single. -/
theorem bound_identifier (h : resolve n d = .ok o) : o.identifier.bound = 0 := by
  rcases identifier_cases h with himplicit | ⟨declared, declared', tag, type, hchecked, _, hr⟩
  · rw [himplicit]
    rfl
  · have hlength := hr.length_eq
    rw [Declared.length, (Declared.checkIdentifier_eq_ok hchecked).2] at hlength
    exact (Except.ok.inj hlength).symm

theorem name_identifier (h : resolve n d = .ok o) : o.identifier.name = Field.identifierName := by
  rcases identifier_cases h with himplicit | ⟨declared, declared', tag, type, _, hid, hr⟩
  · rw [himplicit]
    rfl
  · rw [hr.name_eq]
    exact beq_iff_eq.mp hid

theorem nodup_name_of_resolveFields {ds : List Declared} {tags : List Int} {fields : List Field}
    (hds : declared n d = .ok ds) (htags : WireTag.allocate ds = .ok tags)
    (hfields : resolveFields n d (ds.zip tags) = .ok fields) : (fields.map Field.name).Nodup := by
  have hlen := (WireTag.allocate_eq_ok htags).1
  have hmap : ((ds.zip tags).map Prod.fst).map (fun d => d.declarator.name) =
      fields.map Field.name := by
    rw [List.map_map, map_name_of_resolveFields hfields]
    rfl
  rw [← hmap, List.map_fst_zip hlen.ge]
  exact nodup_of_declared hds

/-- Each declared field is a field of the object, the identifier too. -/
theorem mem_fields_of_mem {ds : List Declared} {tags : List Int} {fields : List Field}
    (hds : declared n d = .ok ds) (htags : WireTag.allocate ds = .ok tags)
    (hfields : resolveFields n d (ds.zip tags) = .ok fields) {f : Field} (hf : f ∈ fields) :
    f ∈ (ofFields d fields).fields := by
  have hid : ∀ g ∈ fields, g.isIdentifier = true → g.name = Field.identifierName := by
    intro g hg hidentifier
    obtain ⟨x, _, hx⟩ := (mem_of_resolveFields_eq_ok hfields).mp hg
    exact (isIdentifier_iff hx).mp hidentifier
  by_cases hidentifier : f.isIdentifier = true
  · cases hfind : fields.find? Field.isIdentifier with
    | none => exact absurd hidentifier (List.find?_eq_none.mp hfind f hf)
    | some g =>
        have hg := List.mem_of_find?_eq_some hfind
        have hname : g.name = f.name :=
          (hid g hg (List.find?_some hfind)).trans (hid f hf hidentifier).symm
        have heq :=
          List.inj_on_of_nodup_map (nodup_name_of_resolveFields hds htags hfields) hg hf hname
        refine List.mem_cons.mpr (Or.inl ?_)
        simp only [ofFields, hfind, Option.getD_some, heq]
  · refine List.mem_cons_of_mem _ (List.mem_mergeSort.mpr (List.mem_filter.mpr ⟨hf, ?_⟩))
    simpa using hidentifier

theorem nodup_name_fields (h : resolve n d = .ok o) : (o.fields.map Field.name).Nodup := by
  have hidentifier := name_identifier h
  obtain ⟨ds, tags, fields, hds, htags, hfields, rfl⟩ := resolve_eq_ok_iff.mp h
  have hnames := nodup_name_of_resolveFields hds htags hfields
  have hid : ∀ f ∈ fields, f.isIdentifier = true ↔ f.name = Field.identifierName := by
    intro f hf
    obtain ⟨x, _, hx⟩ := (mem_of_resolveFields_eq_ok hfields).mp hf
    exact isIdentifier_iff hx
  have hperm := (ofFields_ordered_perm d fields).map Field.name
  rw [Object.fields, List.map_cons, List.nodup_cons, hidentifier, hperm.nodup_iff, hperm.mem_iff]
  constructor
  · intro hmem
    obtain ⟨f, hf, hname⟩ := List.mem_map.mp hmem
    obtain ⟨hf, hnot⟩ := List.mem_filter.mp hf
    rw [(hid f hf).mpr hname] at hnot
    cases hnot
  · exact hnames.sublist (List.filter_sublist.map _)

theorem ordered_pairwise_tag (h : resolve n d = .ok o) :
    o.ordered.Pairwise fun f g => f.tag < g.tag := by
  obtain ⟨ds, tags, _, htags, _, hperm⟩ := tags_of_resolve_eq_ok h
  have hnodup := hperm.nodup_iff.mpr (WireTag.allocate_eq_ok htags).2.2.1
  obtain ⟨_, _, fields, _, _, _, rfl⟩ := resolve_eq_ok_iff.mp h
  have hsorted : (ofFields d fields).ordered.Pairwise fun f g => f.tag ≤ g.tag := by
    refine (List.pairwise_mergeSort ?_ ?_ _).imp of_decide_eq_true
    · intro a b c hab hbc
      exact decide_eq_true ((of_decide_eq_true hab).trans (of_decide_eq_true hbc))
    · intro a b
      simp only [Bool.or_eq_true, decide_eq_true_eq]
      exact le_total a.tag b.tag
  have hne : (ofFields d fields).ordered.Pairwise fun f g => f.tag ≠ g.tag :=
    List.pairwise_map.mp hnodup
  refine (hsorted.and hne).imp ?_
  intro f g hfg
  exact lt_of_le_of_ne hfg.1 hfg.2

end Object

end RecordSchema
