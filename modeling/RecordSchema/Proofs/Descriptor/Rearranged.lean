import RecordSchema.Proofs.Descriptor.Order
import RecordSchema.Proofs.Model.Rearranged
import RecordSchema.Store.Library

/-!
# Bundles of rearranged documents

The order in which documents define things does not matter to what is emitted for them. Objects come
in dependency order with the same descriptions; what is listed in document order follows the
document.
-/

namespace RecordSchema

open Namespace

theorem Object.order_of_perm {os os' sorted : List Object} (hperm : os'.Perm os)
    (hkeys : (os.map key).Nodup) (h : order os = .ok sorted) : order os' = .ok sorted := by
  have hkeys' := (hperm.map key).nodup_iff.mpr hkeys
  have hfind : ∀ k, (os'.find? fun o => o.key == k) = os.find? fun o => o.key == k :=
    fun k => find?_key_of_perm hperm hkeys k
  unfold order at h ⊢
  split at h
  · cases h
  · next vs hvs =>
      rw [Vertex.order, distinct_map_vertex hkeys, List.length_map] at hvs
      have hvertices : ((os.map vertex).map Vertex.key).Nodup := by
        rw [List.map_map]
        exact hkeys
      have hvs' : Vertex.order (os'.map vertex) = .ok vs := by
        rw [Vertex.order, distinct_map_vertex hkeys', List.length_map, hperm.length_eq]
        exact Vertex.rounds_of_perm (hperm.map vertex) hvertices hvs
      rw [hvs']
      simpa only [hfind] using h

section Congruence

variable {m m' : Model}

/-- Whether a model finds the same definitions by key as another. -/
structure Model.FindsAlike (m m' : Model) : Prop where
  enum?_eq : m'.enum? = m.enum?
  bitmask?_eq : m'.bitmask? = m.bitmask?
  object?_eq : m'.object? = m.object?

theorem Layout.ofObject_congr (h : m.FindsAlike m') (pointerSize : Int64) (fuel : Nat) :
    ofObject m' pointerSize fuel = ofObject m pointerSize fuel := by
  have hflat : flatElement m' = flatElement m :=
    funext fun f => flatElement_congr fun _ => by rw [h.bitmask?_eq]
  induction fuel with
  | zero =>
      funext o
      rw [ofObject, ofObject, hflat]
  | succ fuel ih =>
      funext o
      rw [ofObject, ofObject, h.object?_eq, ih, hflat]

theorem FieldDescriptor.ofFields_congr (h : m.FindsAlike m') (naming : Naming) (l : Layout)
    (index : Nat) (previous : Option Field) (fs : List Field) :
    ofFields m' naming l index previous fs = ofFields m naming l index previous fs := by
  have hdetail : detailOf m' = detailOf m := by
    unfold detailOf
    rw [h.enum?_eq, h.bitmask?_eq, h.object?_eq]
  have hfield : ofField m' = ofField m := by
    unfold ofField
    rw [hdetail]
  induction fs generalizing index previous with
  | nil => rfl
  | cons f rest ih => rw [ofFields, ofFields, hfield, ih]

theorem ObjectDescriptor.ofObject_congr (h : m.FindsAlike m') (naming : Naming) (o : Object)
    (l : Layout) : ofObject m' naming o l = ofObject m naming o l := by
  rw [ofObject, ofObject, FieldDescriptor.ofFields_congr h]

end Congruence

namespace Model

variable {documents : Documents} {root : Text} {p : Program} {m m' : Model}

theorem Alike.findsAlike (h : m.Alike m') (hp : p.IsLocated) (hm : resolve p = .ok m) :
    m.FindsAlike m' := by
  have hnames := nodup_name_of_resolve hm
  constructor
  · funext key
    refine find?_key_of_perm h.allEnums_perm ?_ key
    rw [allEnums_eq hm]
    exact nodup_map_filterMap_steps hp hnames .enum fun _ _ => key_of_enumOf?
  · funext key
    refine find?_key_of_perm h.allBitmasks_perm ?_ key
    rw [allBitmasks_eq hm]
    exact nodup_map_filterMap_steps hp hnames .bitmask fun _ _ => key_of_bitmaskOf?
  · funext key
    exact find?_key_of_perm h.allObjects_perm (nodup_key_of_isLocated hp hm) key

end Model

namespace Bundle

variable {documents documents' : Documents} {options : EmitOptions} {depth : Nat} {root : Text}
variable {p p' : Program} {m m' : Model} {b b' : Bundle}

/-- Models that list the same are emitted together, with the same objects. -/
theorem exists_emit_of_alike (h : m.Alike m') (hp : p.IsLocated) (hm : Model.resolve p = .ok m)
    (hb : emit options m = .ok b) : ∃ b', emit options m' = .ok b' ∧ b'.objects = b.objects := by
  have hfinds := h.findsAlike hp hm
  obtain ⟨sorted, hsorted, hobjects⟩ := objects_of_emit hb
  have hsorted' :=
    Object.order_of_perm h.allObjects_perm (Model.nodup_key_of_isLocated hp hm) hsorted
  refine ⟨_, bind_eq_ok_iff.mpr ⟨sorted, hsorted', rfl⟩, ?_⟩
  have hlaid : Layout.ofObjects m' options.pointerSize sorted =
      Layout.ofObjects m options.pointerSize sorted := by
    unfold Layout.ofObjects
    rw [Layout.ofObject_congr hfinds, h.allObjects_perm.length_eq]
  have hown : ∀ key, (m'.objects.any fun o => o.key == key) = m.objects.any fun o => o.key == key :=
    fun key => h.objects_perm.any_eq
  simp only [hobjects, hlaid, hown, ObjectDescriptor.ofObject_congr hfinds]

/-- What is emitted for the document at a path, whose imports are followed down to a depth. -/
def ofDocuments (options : EmitOptions) (documents : Documents) (depth : Nat) (root : Text) :
    Option Bundle := do
  let p ← (Program.loadIn documents depth root).1.toOption
  let m ← (Model.resolve p).toOption
  (emit options m).toOption

theorem ofDocuments_eq_some_iff :
    ofDocuments options documents depth root = some b ↔
      ∃ p m, (Program.loadIn documents depth root).1 = .ok p ∧ Model.resolve p = .ok m ∧
        emit options m = .ok b := by
  constructor
  · intro h
    obtain ⟨p, hp, h⟩ := Option.bind_eq_some_iff.mp h
    obtain ⟨m, hm, h⟩ := Option.bind_eq_some_iff.mp h
    exact ⟨p, m, eq_ok_of_toOption_eq_some hp, eq_ok_of_toOption_eq_some hm,
      eq_ok_of_toOption_eq_some h⟩
  · rintro ⟨p, m, hp, hm, hb⟩
    simp only [ofDocuments, hp, hm, hb, Except.toOption, Option.bind_eq_bind, Option.bind_some]

/-- Whether two lists hold the same, each in the order in which a document names it. -/
structure Lists {α : Type} (k : Keyword) (name : α → Text) (d d' : Document) (xs xs' : List α) :
    Prop where
  perm : xs'.Perm xs
  name_eq : xs.map name = d.names k
  name_eq' : xs'.map name = d'.names k

/-- Whether two bundles of a document and of its rearrangement differ in nothing but the order of
what is listed in document order. -/
structure Rearranges (d d' : Document) (b b' : Bundle) : Prop where
  schema_eq : b'.schema = b.schema
  imports_eq : b'.imports = b.imports
  objects_eq : b'.objects = b.objects
  constants : Lists .constant Prod.fst d d' b.constants b'.constants
  enums : Lists .enum EnumDescriptor.name d d' b.enums b'.enums
  bitmasks : Lists .bitmask EnumDescriptor.name d d' b.bitmasks b'.bitmasks
  databases : Lists .database DatabaseDescriptor.name d d' b.databases b'.databases

theorem rearranges_of_alike (halike : p.Alike p') (hp : p.LoadedIn documents root)
    (hp' : p'.LoadedIn documents' root) (hm : Model.resolve p = .ok m)
    (hm' : Model.resolve p' = .ok m') (hb : emit options m = .ok b)
    (hb' : emit options m' = .ok b') :
    ∃ d d', documents root = .ok d ∧ documents' root = .ok d' ∧ Rearranges d d' b b' := by
  have h := Model.alike_of_resolve halike hp hp' hm hm'
  obtain ⟨b₁, hb₁, hobjects⟩ := exists_emit_of_alike h hp.isLocated hm hb
  cases hb'.symm.trans hb₁
  obtain ⟨d, hd, hown⟩ := (hp.isOf p.root hp.root_mem).own_eq
  obtain ⟨d', hd', hown'⟩ := (hp'.isOf p'.root hp'.root_mem).own_eq
  have hnames : ∀ k, p.root.own.names k = d.names k := fun k => hown ▸ names_scopeOf _ d k
  have hnames' : ∀ k, p'.root.own.names k = d'.names k := fun k => hown' ▸ names_scopeOf _ d' k
  rw [hp.root_path] at hd
  rw [hp'.root_path] at hd'
  obtain ⟨sorted, _, hb⟩ := bind_eq_ok_iff.mp hb
  obtain ⟨sorted', _, hb'⟩ := bind_eq_ok_iff.mp hb'
  cases hb
  cases hb'
  refine ⟨d, d', hd, hd', h.schema_eq, h.imports_eq, hobjects, ?_, ?_, ?_, ?_⟩
  · refine ⟨h.constants_perm.map _, ?_, ?_⟩
    · rw [List.map_map, Model.constants_eq hm, ← hnames, Namespace.constants, List.map_map]
      rfl
    · rw [List.map_map, Model.constants_eq hm', ← hnames', Namespace.constants, List.map_map]
      rfl
  · refine ⟨h.enums_perm.map _, ?_, ?_⟩
    · rw [List.map_map, ← hnames, ← Model.name_enums hp hm]
      rfl
    · rw [List.map_map, ← hnames', ← Model.name_enums hp' hm']
      rfl
  · refine ⟨h.bitmasks_perm.map _, ?_, ?_⟩
    · rw [List.map_map, ← hnames, ← Model.name_bitmasks hp hm]
      rfl
    · rw [List.map_map, ← hnames', ← Model.name_bitmasks hp' hm']
      rfl
  · refine ⟨h.databases_perm.map _, ?_, ?_⟩
    · rw [List.map_map, ← hnames, ← Model.name_databases hp hm]
      rfl
    · rw [List.map_map, ← hnames', ← Model.name_databases hp' hm']
      rfl

theorem exists_ofDocuments_of_rearranged
    (h : ∀ path, Rearranged (documents path) (documents' path))
    (hb : ofDocuments options documents depth root = some b) :
    ∃ b', ofDocuments options documents' depth root = some b' := by
  obtain ⟨p, m, hp, hm, hb⟩ := ofDocuments_eq_some_iff.mp hb
  obtain ⟨p', hp', halike⟩ := Program.exists_alike_of_loadIn h hp
  obtain ⟨m', hm'⟩ := Model.exists_resolve_of_alike halike hm
  have hloaded := Program.loadedIn_of_loadIn (isKeyed_of_rearranged h) hp
  have hloaded' := Program.loadedIn_of_loadIn (isKeyed_of_rearranged fun x => (h x).symm) hp'
  obtain ⟨b', hb', _⟩ := exists_emit_of_alike
    (Model.alike_of_resolve halike hloaded hloaded' hm hm') hloaded.isLocated hm hb
  exact ⟨b', ofDocuments_eq_some_iff.mpr ⟨p', m', hp', hm', hb'⟩⟩

/-- The order of definitions does not matter. If the entries of documents other than imports are
rearranged, a bundle is emitted for them exactly when one is emitted for the documents as they
were. Its objects are the same, and its other lists are the same in the new order of the root
document. This holds of documents in general, and those of a source are loaded in the same way. -/
theorem ofDocuments_rearranged (h : ∀ path, Rearranged (documents path) (documents' path))
    (options : EmitOptions) (depth : Nat) (root : Text) :
    ((∃ b, ofDocuments options documents depth root = some b) ↔
        ∃ b', ofDocuments options documents' depth root = some b') ∧
      (∀ b b', ofDocuments options documents depth root = some b →
        ofDocuments options documents' depth root = some b' →
          ∃ d d', documents root = .ok d ∧ documents' root = .ok d' ∧ Rearranges d d' b b') ∧
      ∀ source : Source,
        ((Program.load source root).1.toOption.bind fun p =>
          (Model.resolve p).toOption.bind fun m =>
          (emit options m).toOption) =
            ofDocuments options source.documents (source.size + 3) root := by
  refine ⟨⟨?_, ?_⟩, ?_, ?_⟩
  · rintro ⟨b, hb⟩
    exact exists_ofDocuments_of_rearranged h hb
  · rintro ⟨b', hb'⟩
    exact exists_ofDocuments_of_rearranged (fun path => (h path).symm) hb'
  · intro b b' hb hb'
    obtain ⟨p, m, hp, hm, hb⟩ := ofDocuments_eq_some_iff.mp hb
    obtain ⟨p', m', hp', hm', hb'⟩ := ofDocuments_eq_some_iff.mp hb'
    obtain ⟨p₁, hp₁, halike⟩ := Program.exists_alike_of_loadIn h hp
    cases hp'.symm.trans hp₁
    have hloaded := Program.loadedIn_of_loadIn (isKeyed_of_rearranged h) hp
    have hloaded' := Program.loadedIn_of_loadIn (isKeyed_of_rearranged fun x => (h x).symm) hp'
    exact rearranges_of_alike halike hloaded hloaded' hm hm' hb hb'
  · intro source
    rw [Program.load_eq_loadIn]
    rfl

end Bundle

/-- The document with its imports first and its other entries in reverse. -/
def Document.mirrored (d : Document) : Document :=
  { d with
    entries := (d.entries.filter fun e => e.key.keyword = .imports) ++ d.definitions.reverse }

theorem Document.rearranges_mirrored {d : Document} (h : d.IsKeyed) : d.Rearranges d.mirrored := by
  refine ⟨?_, ?_, h⟩
  · have hsplit :=
      List.filter_append_perm (fun e : Entry => decide (e.key.keyword = .imports)) d.entries
    refine List.Perm.trans ((List.reverse_perm d.definitions).append_left _) ?_
    simpa only [Document.definitions, ne_eq, decide_not] using hsplit
  · have hnone : (d.definitions.reverse.filter fun e => e.key.keyword = .imports) = [] := by
      rw [List.filter_eq_nil_iff]
      intro e he
      simpa using (List.mem_filter.mp (List.mem_reverse.mp he)).2
    rw [mirrored, List.filter_append, List.filter_filter, hnone, List.append_nil]
    simp only [Bool.and_self]

theorem Source.rearranged_mirrored (source : Source) (path : Text) :
    Rearranged (source.documents path) ((source.documents path).map Document.mirrored) := by
  cases hd : source.documents path with
  | error e => exact .missing
  | ok d =>
      refine .document (Document.rearranges_mirrored ?_)
      unfold Source.documents at hd
      split at hd
      · cases hd
      · split at hd
        · cases hd
        · next hparse =>
            cases hd
            exact Document.isKeyed_of_parse hparse

/-- Definitions that refer to later ones and hide an imported one. -/
def forwardDocuments : Library :=
  .ofList
    [("a.yaml",
        "Import: b.yaml\nObject A:\n f: B\nObject B:\n e[N]: E\n" ++
        "Constant N: 3\nEnum F: {Y: 2}\nEnum E: {X: 1}\n"),
      ("b.yaml", "Constant N: 2\nEnum E: {Z: 4}\n")]

theorem Bundle.ofDocuments_rearranged_forward :
    let documents := forwardDocuments.source.documents
    let mirrored : Documents := fun path => (documents path).map Document.mirrored
    ∃ b b', ofDocuments {} documents 5 "a.yaml" = some b ∧
      ofDocuments {} mirrored 5 "a.yaml" = some b' ∧
      b.objects.map ObjectDescriptor.name = [("B" : Text), ("A" : Text)] ∧ b'.objects = b.objects ∧
      b.enums.map EnumDescriptor.name = [("F" : Text), ("E" : Text)] ∧
      b'.enums.map EnumDescriptor.name = [("E" : Text), ("F" : Text)] ∧ b'.enums.Perm b.enums := by
  intro documents mirrored
  have hok : (ofDocuments {} documents 5 "a.yaml").map
      (fun b => (b.objects.map ObjectDescriptor.name, b.enums.map EnumDescriptor.name)) =
        some ([("B" : Text), ("A" : Text)], [("F" : Text), ("E" : Text)]) := by decide +kernel
  have hnames : ((mirrored "a.yaml").toOption.map fun d => d.names .enum) =
      some [("E" : Text), ("F" : Text)] := by decide +kernel
  obtain ⟨hiff, hsame, _⟩ := ofDocuments_rearranged forwardDocuments.source.rearranged_mirrored {} 5
    "a.yaml"
  obtain ⟨b, hb, hlists⟩ := Option.map_eq_some_iff.mp hok
  obtain ⟨hobjects, henums⟩ := Prod.mk.inj hlists
  obtain ⟨b', hb'⟩ := hiff.mp ⟨b, hb⟩
  obtain ⟨d, d', _, hd', hrearranges⟩ := hsame b b' hb hb'
  have hd' : mirrored "a.yaml" = .ok d' := hd'
  rw [hd'] at hnames
  refine ⟨b, b', hb, hb', hobjects, hrearranges.objects_eq, henums, ?_, hrearranges.enums.perm⟩
  exact hrearranges.enums.name_eq'.trans (Option.some.inj hnames)

end RecordSchema
