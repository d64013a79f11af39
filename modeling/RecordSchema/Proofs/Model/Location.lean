import RecordSchema.Proofs.Model.Allocation
import RecordSchema.Proofs.Model.Labelled
import RecordSchema.Proofs.Model.Permission
import RecordSchema.Proofs.Program.Rearranged
import RecordSchema.Proofs.Schema.Location
import RecordSchema.Store.Library

/-!
# Where errors of definitions point to

A definition is refused at a place inside it, or at a class that its document finds: the class may
have been declared in another document. Either way the place names the definition or one pair of its
body, and the document that it points to has been loaded and declares the definition itself.
-/

namespace RecordSchema

open Text Namespace

section Declarations

variable {n : Namespace} {P : Location → Prop} {place : Location}

theorem Namespace.blames_positive (hplace : P place) (text what : Text) :
    Blames P (n.positive place text what) := by
  unfold positive
  simp only
  split
  · exact .error hplace
  · split
    · split
      · exact .ok _
      · exact .error hplace
    · exact .error hplace

theorem TypeReference.blames_resolve (hplace : P place) (declared : Text) :
    Blames P (resolve n place declared) := by
  have hplain (base : Text) : Blames P (plain n place base) := by
    unfold plain
    split
    · exact .ok _
    · split
      · exact .ok _
      · exact .error hplace
  unfold resolve
  simp only
  split
  · exact .error hplace
  · split
    · exact (blames_positive hplace _ _).bind fun _ _ => .ok _
    · exact .error hplace
    · exact .error hplace
    · exact hplain _

theorem Auth.blames_check (hplace : P place) (a : Option Auth) : Blames P (check place a) := by
  unfold check
  split
  · exact .error hplace
  · exact .ok ()

theorem Declared.blames_resolve {d : Declared} (hplace : P d.place) (tag : Int) :
    Blames P (d.resolve n tag) := by
  have hlength : Blames P (d.length n) := by
    unfold length
    split
    · exact blames_positive hplace _ _
    · exact .ok 0
  have hbounds : Blames P d.checkBounds := by
    unfold checkBounds
    split
    · split
      · exact .error hplace
      · exact .ok ()
    · exact .ok ()
  unfold resolve
  exact (TypeReference.blames_resolve hplace _).bind fun _ _ =>
    (Auth.blames_check hplace _).bind fun _ _ => hlength.bind fun _ _ =>
      hbounds.bind fun _ _ => .ok _

theorem Declared.blames_checkIdentifier {d : Declared} (hplace : P d.place) :
    Blames P d.checkIdentifier := by
  unfold checkIdentifier
  split
  · exact .error hplace
  · simp only
    split
    · exact .ok _
    · exact .error hplace

theorem WireTag.Offends.isAt {before : List Declared} {d : Declared} {e : SchemaError}
    (h : Offends before d e) (hplace : P d.place) : e.IsAt P := by
  cases h <;> exact hplace

theorem WireTag.blames_allocate {ds : List Declared} (h : ∀ d ∈ ds, P d.place) :
    Blames P (allocate ds) := by
  intro e he
  rcases allocate_cases ds with ⟨_, _, tags, hok⟩ | ⟨before, d, after, e', rfl, _, hoffends, he'⟩
  · cases hok.symm.trans he
  · cases he'.symm.trans he
    exact hoffends.isAt (h d (List.mem_append_right _ List.mem_cons_self))

end Declarations

namespace Definition

/-- Whether a place lies in a definition: it is that of the whole definition, or it names a pair of
the body, by the key as written or by the name that the key declares. -/
structure Covers (d : Definition) (l : Location) : Prop where
  document_eq : l.document = d.document
  entity_eq : l.entity = d.keyword.name ++ " " ++ d.name
  member : (l.member = [] ∧ l.line = d.line) ∨
    ∃ pairs, d.body.pairs? = some pairs ∧ ∃ pair ∈ pairs,
      (l.line = d.line ∨ l.line = pair.1.line) ∧
        (l.member = pair.1.node.value ∨
          ∃ declarator, Declarator.parse pair.1.node.value = .ok declarator ∧
            l.member = declarator.name)

variable {d : Definition} {pairs : List (Yaml.Tree × Yaml.Tree)} {pair : Yaml.Tree × Yaml.Tree}

theorem covers_place (d : Definition) : d.Covers d.place := ⟨rfl, rfl, Or.inl ⟨rfl, rfl⟩⟩

section Pairs

variable (hpairs : d.body.pairs? = some pairs) (hpair : pair ∈ pairs)

include hpairs hpair

theorem covers_placeOf : d.Covers (Declared.placeOf d.place pair) :=
  ⟨rfl, rfl, Or.inr ⟨pairs, hpairs, pair, hpair, Or.inr rfl, Or.inl rfl⟩⟩

theorem covers_label : d.Covers { d.place with member := pair.1.node.value } :=
  ⟨rfl, rfl, Or.inr ⟨pairs, hpairs, pair, hpair, Or.inl rfl, Or.inl rfl⟩⟩

theorem covers_placeIn {declarator : Declarator}
    (h : Declarator.parse pair.1.node.value = .ok declarator) :
    d.Covers (Declared.placeIn d.place pair declarator) :=
  ⟨rfl, rfl, Or.inr ⟨pairs, hpairs, pair, hpair, Or.inr rfl, Or.inr ⟨declarator, h, rfl⟩⟩⟩

theorem covers_of_readFrom {n : Namespace} {x : Declared} (h : Declared.ReadFrom n d.place pair x) :
    d.Covers x.place := by
  rw [h.place_eq]
  exact covers_placeIn hpairs hpair h.hasAuth.declarator_eq

end Pairs

end Definition

open Definition

section Bodies

-- The places in one definition, and those of the classes that are found for it.
variable {n : Namespace} {d : Definition} {P : Location → Prop}
  {pairs : List (Yaml.Tree × Yaml.Tree)} {pair : Yaml.Tree × Yaml.Tree}
  (hclass : ∀ name c, n.lookup? .attributeClass name = some c → P c.place)
  (hin : ∀ l, d.Covers l → P l) (hpairs : d.body.pairs? = some pairs)

include hin hpairs in
theorem Declared.blames_readName (hpair : pair ∈ pairs) : Blames P (readName d.place pair) := by
  unfold readName
  split
  · exact .ok _
  · exact .error (hin _ (covers_placeOf hpairs hpair))

include hclass in
theorem Declared.blames_readBody {place : Location} (hplace : P place) (body : Yaml.Tree) :
    Blames P (readBody n place body) := by
  have hclassOf (own : Attributes) : Blames P (n.classOf place own) := by
    unfold classOf
    simp only
    split
    · split
      · exact .error hplace
      · exact .ok _
    · next c hc =>
        split
        · exact .ok _
        · exact .error (hclass _ c hc)
  unfold readBody
  split
  · exact .error hplace
  · exact (hclassOf _).bind fun _ _ => .ok _

include hclass hin hpairs

theorem Declared.blames_readField (hpair : pair ∈ pairs) : Blames P (readField n d.place pair) := by
  unfold readField
  refine (blames_readName hin hpairs hpair).bind fun declarator hname => ?_
  have hplace : P (placeIn d.place pair declarator) :=
    hin _ (covers_placeIn hpairs hpair (parse_of_readName hname))
  refine (blames_readBody hclass hplace pair.2).bind fun attributes _ => ?_
  have htype (x : Declared) : Blames P (if x.attributes.type.isNone then
      .error (.malformed (placeIn d.place pair declarator) .missingType) else .ok x :
        Except SchemaError Declared) := by
    split
    · exact .error hplace
    · exact .ok x
  simp only
  split
  · exact (blames_checkIdentifier hplace).bind fun x _ => htype x
  · exact (Blames.ok _).bind fun x _ => htype x

theorem Declared.blames_readFields (seen : List Text) {part : List (Yaml.Tree × Yaml.Tree)}
    (hsub : part ⊆ pairs) : Blames P (readFields n d.place seen part) := by
  induction part generalizing seen with
  | nil => exact .ok []
  | cons pair rest ih =>
      obtain ⟨hpair, hrest⟩ := List.cons_subset.mp hsub
      rw [readFields]
      refine (blames_readField hclass hin hpairs hpair).bind fun x hx => ?_
      split
      · exact .error (hin _ (covers_of_readFrom hpairs hpair (readFrom_of_readField hx)))
      · exact (ih _ hrest).bind fun xs _ => .ok _

theorem DatabaseEntry.blames_resolve (hpair : pair ∈ pairs) :
    Blames P (DatabaseEntry.resolve n d pair) := by
  have hback (x : Declared) (hplace : P x.place) (e : DatabaseEntry) : Blames P (back n d x e) := by
    unfold back
    split
    · split
      · exact .error hplace
      · split
        · exact .error hplace
        · exact .ok _
    · split
      · exact .error hplace
      · split
        · exact (blames_positive hplace _ _).bind fun _ _ => .ok _
        · exact .ok _
  unfold DatabaseEntry.resolve
  refine (Declared.blames_readName hin hpairs hpair).bind fun declarator hname => ?_
  have hplace : P (Declared.placeIn d.place pair declarator) :=
    hin _ (covers_placeIn hpairs hpair (Declared.parse_of_readName hname))
  simp only
  split
  · exact .error hplace
  · refine (Declared.blames_readBody hclass hplace pair.2).bind fun attributes _ => ?_
    split
    · exact .error hplace
    · split
      · exact .error hplace
      · exact (Auth.blames_check hplace _).bind fun _ _ => hback _ hplace _

theorem Database.blames_resolveEntries (seen : List Text) {part : List (Yaml.Tree × Yaml.Tree)}
    (hsub : part ⊆ pairs) : Blames P (resolveEntries n d seen part) := by
  induction part generalizing seen with
  | nil => exact .ok []
  | cons pair rest ih =>
      obtain ⟨hpair, hrest⟩ := List.cons_subset.mp hsub
      rw [resolveEntries]
      refine (DatabaseEntry.blames_resolve hclass hin hpairs hpair).bind fun e he => ?_
      split
      · obtain ⟨declarator, a, ha, _, hpermitted⟩ := DatabaseEntry.isPermitted_of_resolve he
        rw [hpermitted.name_eq]
        exact .error (hin _ (covers_placeIn hpairs hpair ha.declarator_eq))
      · exact (ih _ hrest).bind fun es _ => .ok _

end Bodies

section Resolution

variable {n : Namespace} {d : Definition} {P : Location → Prop}
  (hclass : ∀ name c, n.lookup? .attributeClass name = some c → P c.place)
  (hin : ∀ l, d.Covers l → P l)

theorem Object.blames_resolveFields {ps : List (Declared × Int)} (h : ∀ x ∈ ps, P x.1.place) :
    Blames P (resolveFields n d ps) := by
  induction ps with
  | nil => exact .ok []
  | cons x rest ih =>
      obtain ⟨hx, hrest⟩ := List.forall_mem_cons.mp h
      rw [resolveFields]
      refine (Declared.blames_resolve hx x.2).bind fun f _ => ?_
      split
      · exact .error trivial
      · exact (ih hrest).bind fun fields _ => .ok _

include hin

theorem LabelledValue.blames_readAll (valueKeys : List Text) : Blames P (readAll d valueKeys) := by
  unfold readAll
  split
  · exact .error (hin _ d.covers_place)
  · next pairs hpairs =>
      refine .mapM fun pair hpair => ?_
      simp only
      split
      · exact .ok _
      · exact .error (hin _ (covers_placeOf hpairs hpair))

theorem Bitmask.blames_resolve : Blames P (Bitmask.resolve d) := by
  have hbits : ∀ values : List LabelledValue,
      (∀ v ∈ values, P { d.place with member := v.label }) →
      ∀ seen highest, Blames P (checkBits d.place values seen highest) := by
    intro values hvalues
    induction values with
    | nil => exact fun seen highest => .ok highest
    | cons v rest ih =>
        obtain ⟨hv, hrest⟩ := List.forall_mem_cons.mp hvalues
        intro seen highest
        rw [checkBits]
        simp only
        split
        · exact .error hv
        · split
          · exact .error hv
          · exact ih hrest _ _
  unfold Bitmask.resolve
  refine (LabelledValue.blames_readAll hin _).bind fun values hvalues => ?_
  refine (hbits values ?_ [] 0).bind fun highest _ => .ok _
  obtain ⟨pairs, hpairs, hall⟩ := LabelledValue.forall₂_of_readAll (by decide) hvalues
  intro v hv
  obtain ⟨pair, hpair, hof⟩ := exists_of_forall₂_left hall.flip v hv
  rw [hof.label_eq]
  exact hin _ (covers_label hpairs hpair)

include hclass

theorem Object.blames_resolve : Blames P (Object.resolve n d) := by
  unfold Object.resolve
  split
  · exact .error (hin _ d.covers_place)
  · next pairs hpairs =>
      refine (Declared.blames_readFields hclass hin hpairs [] (List.Subset.refl _)).bind
        fun ds hds => ?_
      have hplace : ∀ x ∈ ds, P x.place := by
        intro x hx
        obtain ⟨pair, hpair, hfrom⟩ :=
          exists_of_forall₂_left (Declared.readFrom_of_readFields hds).flip x hx
        exact hin _ (covers_of_readFrom hpairs hpair hfrom)
      refine (WireTag.blames_allocate hplace).bind fun tags _ => ?_
      refine (blames_resolveFields fun x hx => ?_).bind fun fields _ => .ok _
      exact hplace x.1 (List.of_mem_zip hx).1

theorem Database.blames_resolve : Blames P (Database.resolve n d) := by
  unfold Database.resolve
  split
  · exact .error (hin _ d.covers_place)
  · next pairs hpairs =>
      exact (blames_resolveEntries hclass hin hpairs [] (List.Subset.refl _)).bind
        fun entries _ => .ok _

/-- A definition is refused inside it or at a class. -/
theorem Definition.blames_resolve? : Blames P (d.resolve? n) := by
  unfold resolve?
  split
  · exact ((LabelledValue.blames_readAll hin _).bind fun values _ => .ok _).map
  · exact (Bitmask.blames_resolve hin).map
  · exact (Object.blames_resolve hclass hin).map
  · exact (Database.blames_resolve hclass hin).map
  · exact .ok none

end Resolution

namespace Program

/-- Two documents are refused exactly for a schema name that both have. -/
theorem checkNames_eq_error {seen : List (Text × Text)} {ns : List Namespace} {e : SchemaError}
    (h : checkNames seen ns = .error e) :
    ∃ before n after other, ns = before ++ n :: after ∧
      (n.name, other) ∈ seen ++ before.map (fun m => (m.name, m.path)) ∧
      e = .malformed { document := n.path } (.sharedName n.name other) := by
  induction ns generalizing seen with
  | nil => cases h
  | cons n rest ih =>
      rw [checkNames] at h
      split at h
      · next other hother =>
          cases h
          exact ⟨[], n, rest, other, rfl, List.mem_append_left _ (mem_of_lookup_eq_some hother),
            rfl⟩
      · obtain ⟨before, m, after, other, rfl, hmem, he⟩ := ih h
        refine ⟨n :: before, m, after, other, rfl, ?_, he⟩
        simp only [List.map_cons, List.mem_append, List.mem_cons] at hmem ⊢
        tauto

/-- The errors of the definitions of a loaded program point into definitions of its documents. -/
theorem blames_resolveSteps {source : Source} {p : Program}
    (hloaded : Loaded source p.namespaces) :
    Blames (fun l => ∃ n ∈ p.namespaces, ∃ d ∈ n.own.definitions, d.Covers l)
      (resolveSteps p.steps) := by
  intro e he
  obtain ⟨⟨n, d⟩, hs, he⟩ := resolveSteps_eq_error he
  obtain ⟨hn, hd, _⟩ := mem_steps.mp hs
  refine Definition.blames_resolve? (fun name c hc => ?_) (fun l hl => ⟨n, hn, d, hd, hl⟩) e he
  obtain ⟨m, hm, hc⟩ := declares_of_lookup? hloaded hn hc
  exact ⟨m, hm, c, hc, c.covers_place⟩

/-- The errors of a loaded program point into its documents. -/
theorem blames_resolve {source : Source} {p : Program} (hloaded : Loaded source p.namespaces) :
    Blames (fun l => l.document ∈ p.namespaces.map Namespace.path) (Model.resolve p) := by
  have hnames : Blames (fun l => l.document ∈ p.namespaces.map Namespace.path)
      (checkNames [] p.namespaces) := by
    intro e he
    obtain ⟨before, n, after, other, hsplit, _, rfl⟩ := checkNames_eq_error he
    refine List.mem_map_of_mem (f := Namespace.path) ?_
    rw [hsplit]
    exact List.mem_append_right _ List.mem_cons_self
  unfold Model.resolve
  refine hnames.bind fun _ _ => ((blames_resolveSteps hloaded).mono ?_).bind fun rs _ => .ok _
  rintro l ⟨n, hn, d, hd, hl⟩
  rw [hl.document_eq, (hloaded.declares hn).document_eq d hd]
  exact List.mem_map_of_mem hn

/-- Whether a place lies in a declaration that a loaded document makes itself. -/
def IsPlaced (source : Source) (p : Program) (l : Location) : Prop :=
  ∃ n ∈ p.namespaces, l.document = n.path ∧
    ∃ document, source.documents n.path = .ok document ∧
      ∃ x ∈ document.definitions, (Load.definition n x).Covers l

section Placed

variable {source : Source} {root : Text} {p : Program} {n : Namespace} {d : Definition}
variable {l : Location}

theorem isPlaced_of_covers (h : (load source root).1 = .ok p) (hn : n ∈ p.namespaces)
    (hd : d ∈ n.own.definitions) (hl : d.Covers l) : p.IsPlaced source l := by
  have hof := (loadedIn_of_load h).isOf n hn
  obtain ⟨document, hdocument, hown⟩ := hof.own_eq
  rw [hown] at hd
  obtain ⟨x, hx, rfl⟩ := List.mem_map.mp hd
  have hsame : Load.definition (blank n.path) = Load.definition n :=
    Load.definition_congr rfl hof.name_eq.symm
  exact ⟨n, hn, hl.document_eq, document, hdocument, x, hx, hsame ▸ hl⟩

theorem isPlaced_of_class (h : (load source root).1 = .ok p) (hn : n ∈ p.namespaces) {name : Text}
    (hd : n.lookup? .attributeClass name = some d) : p.IsPlaced source d.place := by
  obtain ⟨m, hm, hd⟩ := declares_of_lookup? (loadedFrom_of_load h).loaded hn hd
  exact isPlaced_of_covers h hm hd d.covers_place

/-- A loaded program is refused because a document has the schema name of an earlier one, or
because of the first definition that cannot be resolved. In the second case the error is a cycle of
objects or points into a declaration of a loaded document: that definition, or a class which its
document finds. -/
theorem isPlaced_of_resolve_eq_error {e : SchemaError} (h : (load source root).1 = .ok p)
    (he : Model.resolve p = .error e) :
    (∃ before m after, p.namespaces = before ++ m :: after ∧ ∃ other ∈ before, other.name = m.name ∧
      e = .malformed { document := m.path } (.sharedName m.name other.path)) ∨
    (p.namespaces.map Namespace.name).Nodup ∧
      ∃ before s after, p.steps = before ++ s :: after ∧
        (∀ t ∈ before, ∃ r, t.2.resolve? t.1 = .ok r) ∧ s.2.resolve? s.1 = .error e ∧
        e.IsAt fun l => p.IsPlaced source l ∧
          (s.2.Covers l ∨ ∃ name c, s.1.lookup? .attributeClass name = some c ∧ l = c.place) := by
  rcases bind_eq_error_iff.mp he with he | ⟨_, hnames, he⟩
  · left
    obtain ⟨before, m, after, other, hsplit, hmem, he⟩ := checkNames_eq_error he
    obtain ⟨n, hn, heq⟩ := List.mem_map.mp (List.nil_append _ ▸ hmem)
    obtain ⟨hname, rfl⟩ := Prod.mk.inj heq
    exact ⟨before, m, after, hsplit, n, hn, hname, he⟩
  · right
    rcases bind_eq_error_iff.mp he with he | ⟨_, _, he⟩
    · obtain ⟨before, ⟨n, d⟩, after, hsplit, hbefore, he⟩ := exists_first_of_resolveSteps he
      obtain ⟨hn, hd, _⟩ := mem_steps.mp (hsplit ▸ List.mem_append_right _ List.mem_cons_self)
      refine ⟨(checkNames_eq_ok_iff.mp hnames).1, before, (n, d), after, hsplit, hbefore, he, ?_⟩
      refine Definition.blames_resolve? ?_ ?_ e he
      · intro name c hc
        exact ⟨isPlaced_of_class h hn hc, Or.inr ⟨name, c, hc, rfl⟩⟩
      · intro l hl
        exact ⟨isPlaced_of_covers h hn hd hl, Or.inl hl⟩
    · cases he

end Placed

/-- A field names a class of a document two imports away that has a tag which is no number. -/
def farClass : Library :=
  .ofList [("a.yaml",
      "Import: lib/b.yaml\nEnum E: {X: 1}\nObject O:\n f[3]: {type: E, class: Far}\n"),
    ("lib/b.yaml", "Import: c.yaml\n"), ("lib/c.yaml", "Constant N: 1\nClass Far:\n tag: x\n")]

/-- The second entry of a database has the size of an unknown constant. -/
def unknownSize : Library :=
  .ofList [("a.yaml",
      "Import: b.yaml\nObject O: {f: u8}\nDatabase D:\n o: O\n all[M]: {type: O}\n"),
    ("b.yaml", "Constant N: 1\n")]

/-- The place at which a program is refused as malformed. -/
def refusedAt? (p : Program) : Option Location :=
  match Model.resolve p with
  | .error (.malformed place _) => some place
  | _ => none

theorem isPlaced_of_resolve_eq_error_far :
    (∃ p, (load farClass.source "a.yaml").1 = .ok p ∧
      p.refusedAt? = some { document := "lib/c.yaml", line := 2, entity := "Class Far" } ∧
      p.IsPlaced farClass.source { document := "lib/c.yaml", line := 2, entity := "Class Far" }) ∧
    ∃ p, (load unknownSize.source "a.yaml").1 = .ok p ∧
      p.refusedAt? =
        some { document := "a.yaml", line := 5, entity := "Database D", member := "all" } ∧
      p.IsPlaced unknownSize.source
        { document := "a.yaml", line := 5, entity := "Database D", member := "all" } := by
  have hplaced (source : Source) (place : Location) (hentity : place.entity ≠ [])
      (h : (do (← (load source "a.yaml").1.toOption).refusedAt?) = some place) :
      ∃ p, (load source "a.yaml").1 = .ok p ∧ p.refusedAt? = some place ∧
        p.IsPlaced source place := by
    obtain ⟨p, hp, hplace⟩ := Option.bind_eq_some_iff.mp h
    have hload := eq_ok_of_toOption_eq_some hp
    refine ⟨p, hload, hplace, ?_⟩
    unfold refusedAt? at hplace
    split at hplace
    · next he =>
        cases hplace
        rcases isPlaced_of_resolve_eq_error hload he with ⟨_, _, _, _, _, _, _, hshared⟩ | ⟨_, hat⟩
        · cases hshared
          exact absurd rfl hentity
        · obtain ⟨_, _, _, _, _, _, hat⟩ := hat
          exact hat.1
    · cases hplace
  exact ⟨hplaced _ _ (by decide) (by decide +kernel), hplaced _ _ (by decide) (by decide +kernel)⟩

end Program

end RecordSchema
