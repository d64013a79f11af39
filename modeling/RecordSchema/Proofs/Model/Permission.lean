import RecordSchema.Proofs.Model.Entry
import RecordSchema.Proofs.Model.Field
import RecordSchema.Store.Library

/-!
# Permissions

A declaration has the auth that it gives itself, or else that of its class. Each level that the auth
names is checked before it is used, so that a text which is no level is reported and never read as
the least restricted level.
-/

namespace RecordSchema

open Text

/-- The texts that are levels. -/
def levelNames : List Text := ["Public", "Admin", "Root"]

theorem Level.ofText?_isSome_iff {t : Text} : (ofText? t).isSome = true ↔ t ∈ levelNames := by
  have hnames : levelNames = all.map name := rfl
  rw [hnames, ofText?, List.find?_isSome, List.mem_map]
  simp only [beq_iff_eq]

namespace Auth

/-- Whether all that an auth names for the verbs are levels. -/
def IsValid (a : Option Auth) : Prop := ∀ v t, get? a v = some t → t ∈ levelNames

/-- Whether a verb is the first for which an auth names no level, but a text. -/
structure Offends (a : Option Auth) (v : Verb) (t : Text) : Prop where
  get?_eq : get? a v = some t
  not_level : t ∉ levelNames
  is_first : ∃ before after, Verb.all = before ++ v :: after ∧
    ∀ w ∈ before, ∀ s, get? a w = some s → s ∈ levelNames

/-- What an auth gives for a verb: the level it names, or the fallback if it names none. -/
def Grants (a : Option Auth) (v : Verb) (fallback l : Level) : Prop :=
  (get? a v = none ∧ l = fallback) ∨ get? a v = some l.name

variable {a : Option Auth} {v : Verb} {t : Text}

theorem firstInvalid?_eq_none_iff : firstInvalid? a = none ↔ IsValid a := by
  unfold firstInvalid? IsValid
  rw [List.findSome?_eq_none_iff]
  constructor
  · intro h v t hv
    have hnone := h v (by cases v <;> decide)
    simp only [hv, ite_eq_left_iff, Bool.not_eq_true, reduceCtorEq, imp_false,
      Bool.not_eq_false] at hnone
    exact Level.ofText?_isSome_iff.mp hnone
  · intro h v _
    cases hv : get? a v with
    | none => rfl
    | some t => simp only [Level.ofText?_isSome_iff.mpr (h v t hv), if_true]

theorem offends_of_firstInvalid? (h : firstInvalid? a = some (v, t)) : Offends a v t := by
  obtain ⟨before, w, after, hall, hw, hbefore⟩ := List.findSome?_eq_some_iff.mp h
  cases hget : get? a w with
  | none => simp only [hget, reduceCtorEq] at hw
  | some s =>
      simp only [hget] at hw
      split at hw
      · cases hw
      · next hnot =>
          cases hw
          refine ⟨hget, fun hmem => hnot (Level.ofText?_isSome_iff.mpr hmem), before, after, hall,
            ?_⟩
          intro u hu s hs
          have hnone := hbefore u hu
          simp only [hs, ite_eq_left_iff, Bool.not_eq_true, reduceCtorEq, imp_false,
            Bool.not_eq_false] at hnone
          exact Level.ofText?_isSome_iff.mp hnone

theorem check_eq_ok_iff {place : Location} : check place a = .ok () ↔ IsValid a := by
  rw [← firstInvalid?_eq_none_iff]
  unfold check
  cases firstInvalid? a with
  | none => simp
  | some x => simp

/-- An auth that is not valid is refused for the first verb that offends. -/
theorem exists_check_eq_error (place : Location) (h : ¬ IsValid a) :
    ∃ v t, Offends a v t ∧ check place a = .error (.permission place v.name t) := by
  cases hfirst : firstInvalid? a with
  | none => exact absurd (firstInvalid?_eq_none_iff.mp hfirst) h
  | some x => exact ⟨x.1, x.2, offends_of_firstInvalid? hfirst, by simp only [check, hfirst]⟩

theorem grants_level (h : IsValid a) (v : Verb) (fallback : Level) :
    Grants a v fallback (level a v fallback) := by
  unfold level
  cases hv : get? a v with
  | none => exact Or.inl ⟨hv, rfl⟩
  | some t =>
      obtain ⟨l, hl⟩ := Option.isSome_iff_exists.mp (Level.ofText?_isSome_iff.mpr (h v t hv))
      have hname : l.name = t := by simpa using List.find?_some hl
      exact Or.inr (by simp only [hl, Option.getD_some, hname, hv])

end Auth

/-- The auth of a body: its own as a whole, or that of the class it names. A body that names none
has the default class, if there is one. -/
inductive EffectiveAuth (n : Namespace) (own : Attributes) : Option Auth → Prop where
  | own {a : Auth} (h : own.auth = some a) : EffectiveAuth n own (some a)
  | ofClass {d : Definition} {base : Attributes} (h : own.auth = none)
      (hd : n.lookup? .attributeClass (own.className.getD defaultClass) = some d)
      (hbase : Attributes.ofClass (some d.body) = .ok base) : EffectiveAuth n own base.auth
  | unset (h : own.auth = none) (hname : own.className = none)
      (hd : n.lookup? .attributeClass defaultClass = none) : EffectiveAuth n own none

theorem EffectiveAuth.unique {n : Namespace} {own : Attributes} {a b : Option Auth}
    (ha : EffectiveAuth n own a) (hb : EffectiveAuth n own b) : a = b := by
  cases ha with
  | own h =>
      cases hb with
      | own h' => exact h.symm.trans h'
      | ofClass h' => cases h.symm.trans h'
      | unset h' => cases h.symm.trans h'
  | ofClass h hd hbase =>
      cases hb with
      | own h' => cases h.symm.trans h'
      | ofClass _ hd' hbase' =>
          cases hd.symm.trans hd'
          cases hbase.symm.trans hbase'
          rfl
      | unset _ hname hd' =>
          rw [hname] at hd
          cases hd.symm.trans hd'
  | unset h hname hd =>
      cases hb with
      | own h' => cases h.symm.trans h'
      | ofClass _ hd' =>
          rw [hname] at hd'
          cases hd.symm.trans hd'
      | unset => rfl

namespace Declared

/-- What a pair of a body declares: a name with a suffix, and an auth. -/
structure HasAuth (n : Namespace) (pair : Yaml.Tree × Yaml.Tree) (declarator : Declarator)
    (a : Option Auth) : Prop where
  declarator_eq : Declarator.parse pair.1.node.value = .ok declarator
  effective : ∃ body, Body.read (some pair.2) = .ok body ∧ EffectiveAuth n body.attributes a

variable {n : Namespace} {entity : Location} {pair : Yaml.Tree × Yaml.Tree}

theorem HasAuth.unique {declarator declarator' : Declarator} {a a' : Option Auth}
    (h : HasAuth n pair declarator a) (h' : HasAuth n pair declarator' a') :
    declarator = declarator' ∧ a = a' := by
  obtain ⟨body, hbody, ha⟩ := h.effective
  obtain ⟨body', hbody', ha'⟩ := h'.effective
  cases hbody.symm.trans hbody'
  exact ⟨Except.ok.inj (h.declarator_eq.symm.trans h'.declarator_eq), ha.unique ha'⟩

theorem parse_of_readName {declarator : Declarator} (h : readName entity pair = .ok declarator) :
    Declarator.parse pair.1.node.value = .ok declarator := by
  unfold readName at h
  split at h
  · next hparse =>
      cases h
      exact hparse
  · cases h

theorem effectiveAuth_of_readBody {place : Location} {body : Yaml.Tree} {attributes : Attributes}
    (h : readBody n place body = .ok attributes) :
    ∃ b, Body.read (some body) = .ok b ∧ EffectiveAuth n b.attributes attributes.auth := by
  unfold readBody at h
  split at h
  · cases h
  · next b hb =>
      obtain ⟨base, hbase, h⟩ := bind_eq_ok_iff.mp h
      cases h
      refine ⟨b, hb, ?_⟩
      unfold Namespace.classOf at hbase
      cases hown : b.attributes.auth with
      | some a =>
          have hauth : (b.attributes.inherit base).auth = some a := by
            simp [Attributes.inherit, hown]
          rw [hauth]
          exact .own hown
      | none =>
          have hauth : (b.attributes.inherit base).auth = base.auth := by
            simp [Attributes.inherit, hown]
          rw [hauth]
          simp only at hbase
          split at hbase
          · next hd =>
              split at hbase
              · cases hbase
              · next hname =>
                  cases hbase
                  have hname := Option.not_isSome_iff_eq_none.mp hname
                  rw [hname] at hd
                  exact .unset hown hname hd
          · next d hd =>
              split at hbase
              · next hclass =>
                  cases hbase
                  exact .ofClass hown hd hclass
              · cases hbase

/-- Where a declaration of a body stands. -/
def placeIn (entity : Location) (pair : Yaml.Tree × Yaml.Tree) (declarator : Declarator) :
    Location :=
  { placeOf entity pair with member := declarator.name }

/-- What reading keeps of a declaration. -/
structure ReadFrom (n : Namespace) (entity : Location) (pair : Yaml.Tree × Yaml.Tree)
    (d : Declared) :
    Prop where
  hasAuth : HasAuth n pair d.declarator d.attributes.auth
  place_eq : d.place = placeIn entity pair d.declarator

theorem readFrom_of_checkIdentifier {d d' : Declared} (h : d.checkIdentifier = .ok d')
    (hd : ReadFrom n entity pair d) : ReadFrom n entity pair d' := by
  unfold checkIdentifier at h
  split at h
  · cases h
  · simp only at h
    split at h
    · cases h
      exact ⟨hd.hasAuth, hd.place_eq⟩
    · cases h

theorem readFrom_of_readField {d : Declared} (h : readField n entity pair = .ok d) :
    ReadFrom n entity pair d := by
  obtain ⟨declarator, hname, h⟩ := bind_eq_ok_iff.mp h
  obtain ⟨attributes, hbody, h⟩ := bind_eq_ok_iff.mp h
  have hread : ReadFrom n entity pair ⟨declarator, attributes, placeIn entity pair declarator⟩ :=
    ⟨⟨parse_of_readName hname, effectiveAuth_of_readBody hbody⟩, rfl⟩
  simp only at h
  split at h
  · obtain ⟨d', hd', h⟩ := bind_eq_ok_iff.mp h
    split at h
    · cases h
    · cases h
      exact readFrom_of_checkIdentifier hd' hread
  · obtain ⟨d', hd', h⟩ := bind_eq_ok_iff.mp h
    cases hd'
    split at h
    · cases h
    · cases h
      exact hread

theorem readFrom_of_readFields {seen : List Text} {pairs : List (Yaml.Tree × Yaml.Tree)}
    {ds : List Declared} (h : readFields n entity seen pairs = .ok ds) :
    List.Forall₂ (ReadFrom n entity) pairs ds := by
  induction pairs generalizing seen ds with
  | nil =>
      cases h
      exact .nil
  | cons pair rest ih =>
      obtain ⟨d, hd, h⟩ := bind_eq_ok_iff.mp h
      split at h
      · cases h
      · obtain ⟨more, hmore, h⟩ := bind_eq_ok_iff.mp h
        cases h
        exact .cons (readFrom_of_readField hd) (ih hmore)

theorem readFrom_of_declared {owner : Definition} {d : Declared} {type : Text}
    (h : DatabaseEntry.declared n owner pair = .ok (d, type)) : ReadFrom n owner.place pair d := by
  obtain ⟨declarator, hname, h⟩ := bind_eq_ok_iff.mp h
  simp only at h
  split at h
  · cases h
  · obtain ⟨attributes, hbody, h⟩ := bind_eq_ok_iff.mp h
    split at h
    · cases h
    · split at h
      · cases h
      · cases h
        exact ⟨⟨parse_of_readName hname, effectiveAuth_of_readBody hbody⟩, rfl⟩

end Declared

/-- The levels of a field with an auth. An action cannot be read back, and an identifier cannot be
written. -/
structure Field.IsPermitted (declarator : Declarator) (a : Option Auth) (f : Field) : Prop where
  name_eq : f.name = declarator.name
  read : if declarator.isAction then f.read = .root else Auth.Grants a .read .everyone f.read
  write : if declarator.name = Field.identifierName then f.write = .root
    else Auth.Grants a .write .everyone f.write

/-- The levels of a database entry with an auth. Those that it leaves out are the read level. -/
structure DatabaseEntry.IsPermitted (declarator : Declarator) (a : Option Auth)
    (e : DatabaseEntry) :
    Prop where
  name_eq : e.name = declarator.name
  read : Auth.Grants a .read .everyone e.read
  create : Auth.Grants a .create e.read e.create
  update : Auth.Grants a .update e.read e.update
  delete : Auth.Grants a .delete e.read e.delete

/-- Where the auths of declarations first name no level: the declaration, the verb and the text. -/
inductive FirstOffence (n : Namespace) : List (Yaml.Tree × Yaml.Tree) → Yaml.Tree × Yaml.Tree →
    Declarator → Verb → Text → Prop where
  | here {pair : Yaml.Tree × Yaml.Tree} {rest : List (Yaml.Tree × Yaml.Tree)}
      {declarator : Declarator}
      {a : Option Auth} {v : Verb} {t : Text} (ha : Declared.HasAuth n pair declarator a)
      (h : Auth.Offends a v t) : FirstOffence n (pair :: rest) pair declarator v t
  | later {pair other : Yaml.Tree × Yaml.Tree} {rest : List (Yaml.Tree × Yaml.Tree)}
      {declarator declarator' : Declarator} {a : Option Auth} {v : Verb} {t : Text}
      (ha : Declared.HasAuth n other declarator' a) (hvalid : Auth.IsValid a)
      (h : FirstOffence n rest pair declarator v t) :
      FirstOffence n (other :: rest) pair declarator v t

/-- Whether a declaration has an auth that is valid. -/
def Declared.HasValidAuth (n : Namespace) (pair : Yaml.Tree × Yaml.Tree) : Prop :=
  ∃ declarator a, HasAuth n pair declarator a ∧ Auth.IsValid a

namespace Declared

variable {n : Namespace} {d : Declared} {tag : Int} {f : Field}

/-- The declaration with no auth at all. -/
def withoutAuth (d : Declared) : Declared :=
  { d with attributes := { d.attributes with auth := none } }

theorem isPermitted_of_resolve (h : d.resolve n tag = .ok f) :
    Auth.IsValid d.attributes.auth ∧ f.IsPermitted d.declarator d.attributes.auth := by
  unfold resolve at h
  obtain ⟨type, _, h⟩ := bind_eq_ok_iff.mp h
  obtain ⟨_, hcheck, h⟩ := bind_eq_ok_iff.mp h
  obtain ⟨bound, _, h⟩ := bind_eq_ok_iff.mp h
  obtain ⟨_, _, h⟩ := bind_eq_ok_iff.mp h
  cases h
  have hvalid := Auth.check_eq_ok_iff.mp hcheck
  refine ⟨hvalid, rfl, ?_, ?_⟩
  · by_cases haction : d.declarator.isAction = true
    · simp only [haction, if_true]
    · simp only [haction]
      exact Auth.grants_level hvalid .read .everyone
  · by_cases hname : d.declarator.name = Field.identifierName
    · simp only [WireTag.isIdentifier, hname, beq_self_eq_true, if_true]
    · simp only [WireTag.isIdentifier, beq_iff_eq, hname, if_false]
      exact Auth.grants_level hvalid .write .everyone

/-- What else than its auth may keep a declaration from being resolved. -/
theorem exists_of_resolve_withoutAuth (h : d.withoutAuth.resolve n tag = .ok f) :
    ∃ type bound, TypeReference.resolve n d.place (d.attributes.type.getD []) = .ok type ∧
      type.key = f.typeKey ∧ d.length n = .ok bound ∧ d.checkBounds = .ok () := by
  unfold resolve at h
  obtain ⟨type, htype, h⟩ := bind_eq_ok_iff.mp h
  obtain ⟨_, _, h⟩ := bind_eq_ok_iff.mp h
  obtain ⟨bound, hbound, h⟩ := bind_eq_ok_iff.mp h
  obtain ⟨_, hbounds, h⟩ := bind_eq_ok_iff.mp h
  cases h
  exact ⟨type, bound, htype, rfl, hbound, hbounds⟩

theorem exists_resolve_of_withoutAuth (h : d.withoutAuth.resolve n tag = .ok f)
    (hvalid : Auth.IsValid d.attributes.auth) :
    ∃ g, d.resolve n tag = .ok g ∧ g.typeKey = f.typeKey := by
  obtain ⟨type, bound, htype, hkey, hbound, hbounds⟩ := exists_of_resolve_withoutAuth h
  have hcheck : Auth.check d.place d.attributes.auth = .ok () := Auth.check_eq_ok_iff.mpr hvalid
  simp only [resolve, htype, hcheck, hbound, hbounds, bind, Except.bind, pure, Except.pure]
  exact ⟨_, rfl, hkey⟩

theorem resolve_eq_error_of_withoutAuth (h : d.withoutAuth.resolve n tag = .ok f) {e : SchemaError}
    (he : Auth.check d.place d.attributes.auth = .error e) : d.resolve n tag = .error e := by
  obtain ⟨type, _, htype, _⟩ := exists_of_resolve_withoutAuth h
  exact bind_eq_error_iff.mpr (Or.inr ⟨type, htype, bind_eq_error_iff.mpr (Or.inl he)⟩)

end Declared

namespace Object

variable {n : Namespace} {d : Definition} {pairs : List (Yaml.Tree × Yaml.Tree)}

/-- Fields that would resolve with no auths resolve, unless one of their auths offends. -/
theorem resolveFields_of_withoutAuth {ds : List Declared} {tags : List Int} {fields : List Field}
    (hread : List.Forall₂ (Declared.ReadFrom n d.place) pairs ds) (hlen : tags.length = ds.length)
    (h : resolveFields n d ((ds.map Declared.withoutAuth).zip tags) = .ok fields) :
    (∀ pair ∈ pairs, Declared.HasValidAuth n pair) ∨
      ∃ pair declarator v t, FirstOffence n pairs pair declarator v t ∧
        resolveFields n d (ds.zip tags) =
          .error (.permission (Declared.placeIn d.place pair declarator) v.name t) := by
  induction hread generalizing tags fields with
  | nil => exact Or.inl fun _ hpair => absurd hpair List.not_mem_nil
  | @cons pair x pairs ds hx _ ih =>
      obtain ⟨tag, tags, rfl⟩ := List.exists_cons_of_length_eq_add_one hlen
      simp only [List.map_cons, List.zip_cons_cons] at h ⊢
      obtain ⟨f, hf, h⟩ := bind_eq_ok_iff.mp h
      split at h
      · cases h
      · next hkey =>
          obtain ⟨more, hmore, _⟩ := bind_eq_ok_iff.mp h
          by_cases hvalid : Auth.IsValid x.attributes.auth
          · rcases ih (Nat.succ.inj hlen) hmore with hall | ⟨q, declarator, v, t, hfirst, herror⟩
            · exact Or.inl (List.forall_mem_cons.mpr ⟨⟨_, _, hx.hasAuth, hvalid⟩, hall⟩)
            · obtain ⟨g, hg, hgkey⟩ := Declared.exists_resolve_of_withoutAuth hf hvalid
              refine Or.inr ⟨q, declarator, v, t, .later hx.hasAuth hvalid hfirst, ?_⟩
              refine bind_eq_error_iff.mpr (Or.inr ⟨g, hg, ?_⟩)
              rw [if_neg (hgkey ▸ hkey)]
              exact bind_eq_error_iff.mpr (Or.inl herror)
          · obtain ⟨v, t, hoffends, hcheck⟩ := Auth.exists_check_eq_error x.place hvalid
            refine Or.inr ⟨pair, x.declarator, v, t, .here hx.hasAuth hoffends, ?_⟩
            rw [hx.place_eq] at hcheck
            refine bind_eq_error_iff.mpr (Or.inl ?_)
            exact Declared.resolve_eq_error_of_withoutAuth hf (hx.place_eq ▸ hcheck)

theorem readFrom_of_declared {ds : List Declared} (h : declared n d = .ok ds) :
    ∃ pairs, d.body.pairs? = some pairs ∧ List.Forall₂ (Declared.ReadFrom n d.place) pairs ds := by
  unfold declared at h
  split at h
  · cases h
  · next pairs hpairs => exact ⟨pairs, hpairs, Declared.readFrom_of_readFields h⟩

/-- Whether each field that a definition declares is in the object with the levels of its auth,
which names nothing but levels. -/
def IsPermitted (n : Namespace) (d : Definition) (o : Object) : Prop :=
  ∃ pairs, d.body.pairs? = some pairs ∧ ∀ pair ∈ pairs, ∃ declarator a,
    Declared.HasAuth n pair declarator a ∧ Auth.IsValid a ∧
      ∃ f ∈ o.fields, f.IsPermitted declarator a

theorem isPermitted_of_resolve {o : Object} (h : resolve n d = .ok o) : o.IsPermitted n d := by
  obtain ⟨ds, tags, fields, hds, htags, hfields, rfl⟩ := resolve_eq_ok_iff.mp h
  obtain ⟨pairs, hpairs, hread⟩ := readFrom_of_declared hds
  refine ⟨pairs, hpairs, fun pair hpair => ?_⟩
  obtain ⟨x, hx, hfrom⟩ := exists_of_forall₂_left hread pair hpair
  have hlen := (WireTag.allocate_eq_ok htags).1
  obtain ⟨y, hy, rfl⟩ : ∃ y ∈ ds.zip tags, y.1 = x := by
    rw [← List.map_fst_zip hlen.ge] at hx
    exact List.mem_map.mp hx
  obtain ⟨f, hf, _⟩ := exists_field_of_resolveFields hfields y hy
  have hmem := (mem_of_resolveFields_eq_ok hfields).mpr ⟨y, hy, hf⟩
  obtain ⟨hvalid, hpermitted⟩ := Declared.isPermitted_of_resolve hf
  exact ⟨_, _, hfrom.hasAuth, hvalid, f, mem_fields_of_mem hds htags hfields hmem, hpermitted⟩

/-- No identifier can be written, whether or not it is declared. -/
theorem write_identifier {o : Object} (h : resolve n d = .ok o) : o.identifier.write = .root := by
  obtain ⟨ds, tags, fields, _, _, hfields, rfl⟩ := resolve_eq_ok_iff.mp h
  cases hfind : fields.find? Field.isIdentifier with
  | none => simp [ofFields, hfind, Field.implicitIdentifier]
  | some f =>
      simp only [ofFields, hfind, Option.getD_some]
      obtain ⟨x, _, hx⟩ :=
        (mem_of_resolveFields_eq_ok hfields).mp (List.mem_of_find?_eq_some hfind)
      have hpermitted := (Declared.isPermitted_of_resolve hx).2
      have hname := (isIdentifier_iff hx).mp (List.find?_some hfind)
      have hwrite := hpermitted.write
      rwa [if_pos (hpermitted.name_eq.symm.trans hname)] at hwrite

end Object

namespace DatabaseEntry

variable {n : Namespace} {owner : Definition} {pair : Yaml.Tree × Yaml.Tree} {e : DatabaseEntry}

theorem isPermitted_of_resolve (h : resolve n owner pair = .ok e) :
    ∃ declarator a, Declared.HasAuth n pair declarator a ∧ Auth.IsValid a ∧
      e.IsPermitted declarator a := by
  obtain ⟨d, type, hd, hcheck, hback⟩ := resolve_eq_ok_iff.mp h
  have hvalid := Auth.check_eq_ok_iff.mp hcheck
  have houtline : (outline d type).IsPermitted d.declarator d.attributes.auth :=
    { name_eq := rfl
      read := Auth.grants_level hvalid .read .everyone
      create := Auth.grants_level hvalid .create _
      update := Auth.grants_level hvalid .update _
      delete := Auth.grants_level hvalid .delete _ }
  refine ⟨d.declarator, d.attributes.auth, (Declared.readFrom_of_declared hd).hasAuth, hvalid, ?_⟩
  cases backed_of_back hback with
  | subdatabase _ =>
      exact ⟨houtline.name_eq, houtline.read, houtline.create, houtline.update, houtline.delete⟩
  | collection _ _ =>
      exact ⟨houtline.name_eq, houtline.read, houtline.create, houtline.update, houtline.delete⟩
  | resource _ _ =>
      exact ⟨houtline.name_eq, houtline.read, houtline.create, houtline.update, houtline.delete⟩

/-- The entry of a declaration, whose auth is not checked. -/
def resolveUnchecked (n : Namespace) (owner : Definition) (pair : Yaml.Tree × Yaml.Tree) :
    Except SchemaError DatabaseEntry :=
  declared n owner pair >>= fun x => back n owner x.1 (outline x.1 x.2)

/-- An entry that resolves without a check of its auth resolves, unless the auth offends. -/
theorem resolve_of_resolveUnchecked (h : resolveUnchecked n owner pair = .ok e) :
    (Declared.HasValidAuth n pair ∧ resolve n owner pair = .ok e) ∨
      ∃ declarator a v t, Declared.HasAuth n pair declarator a ∧ Auth.Offends a v t ∧
        resolve n owner pair =
          .error (.permission (Declared.placeIn owner.place pair declarator) v.name t) := by
  obtain ⟨⟨d, type⟩, hd, hback⟩ := bind_eq_ok_iff.mp h
  have hread := Declared.readFrom_of_declared hd
  by_cases hvalid : Auth.IsValid d.attributes.auth
  · have hcheck : Auth.check d.place d.attributes.auth = .ok () := Auth.check_eq_ok_iff.mpr hvalid
    exact Or.inl ⟨⟨_, _, hread.hasAuth, hvalid⟩, resolve_eq_ok_iff.mpr ⟨d, type, hd, hcheck, hback⟩⟩
  · obtain ⟨v, t, hoffends, hcheck⟩ := Auth.exists_check_eq_error d.place hvalid
    refine Or.inr ⟨d.declarator, _, v, t, hread.hasAuth, hoffends, ?_⟩
    rw [resolve_eq, ← hread.place_eq]
    refine bind_eq_error_iff.mpr (Or.inr ⟨(d, type), hd, ?_⟩)
    exact bind_eq_error_iff.mpr (Or.inl hcheck)

end DatabaseEntry

namespace Database

variable {n : Namespace} {owner : Definition}

/-- Whether the entries that a definition declares are those of the database, in order, with the
levels of their auths, which name nothing but levels. -/
def IsPermitted (n : Namespace) (owner : Definition) (b : Database) : Prop :=
  ∃ pairs, owner.body.pairs? = some pairs ∧ List.Forall₂ (fun pair e => ∃ declarator a,
    Declared.HasAuth n pair declarator a ∧ Auth.IsValid a ∧ e.IsPermitted declarator a) pairs
      b.entries

theorem isPermitted_of_resolve {b : Database} (h : resolve n owner = .ok b) :
    b.IsPermitted n owner := by
  obtain ⟨pairs, hpairs, hall⟩ := resolve_eq_ok h
  exact ⟨pairs, hpairs, hall.imp fun _ _ => DatabaseEntry.isPermitted_of_resolve⟩

/-- Entries that resolve without a check of their auths resolve, unless one of their auths
offends. -/
theorem resolveEntries_of_unchecked {seen : List Text} {pairs : List (Yaml.Tree × Yaml.Tree)}
    {es : List DatabaseEntry}
    (h : List.Forall₂ (fun pair e => DatabaseEntry.resolveUnchecked n owner pair = .ok e) pairs es)
    (hnames : (es.map DatabaseEntry.name).Nodup) (hseen : ∀ e ∈ es, e.name ∉ seen) :
    (∀ pair ∈ pairs, Declared.HasValidAuth n pair) ∨
      ∃ pair declarator v t, FirstOffence n pairs pair declarator v t ∧
        resolveEntries n owner seen pairs =
          .error (.permission (Declared.placeIn owner.place pair declarator) v.name t) := by
  induction h generalizing seen with
  | nil => exact Or.inl fun _ hpair => absurd hpair List.not_mem_nil
  | @cons pair e pairs es he _ ih =>
      rw [List.map_cons, List.nodup_cons] at hnames
      obtain ⟨hnew, hnames⟩ := hnames
      have hrest : ∀ e' ∈ es, e'.name ∉ e.name :: seen := by
        intro e' he' hmem
        rcases List.mem_cons.mp hmem with heq | hmem
        · exact hnew (heq ▸ List.mem_map_of_mem he')
        · exact hseen e' (List.mem_cons_of_mem e he') hmem
      rcases DatabaseEntry.resolve_of_resolveUnchecked he with
        ⟨⟨declarator', a, ha, hvalid⟩, hok⟩ | ⟨declarator, a, v, t, ha, hoffends, herror⟩
      · rcases ih hnames hrest with hall | ⟨q, declarator, v, t, hfirst, herror⟩
        · exact Or.inl (List.forall_mem_cons.mpr ⟨⟨declarator', a, ha, hvalid⟩, hall⟩)
        · refine Or.inr ⟨q, declarator, v, t, .later ha hvalid hfirst, ?_⟩
          refine bind_eq_error_iff.mpr (Or.inr ⟨e, hok, ?_⟩)
          rw [if_neg (by simpa using hseen e List.mem_cons_self)]
          exact bind_eq_error_iff.mpr (Or.inl herror)
      · exact Or.inr
          ⟨pair, declarator, v, t, .here ha hoffends, bind_eq_error_iff.mpr (Or.inl herror)⟩

end Database

namespace Definition

/-- Whether nothing but the auths in a definition of an object or of a database may be at fault. -/
def IsSoundApart (n : Namespace) (d : Definition) : Prop :=
  match d.keyword with
  | .object => ∃ ds tags fields, Object.declared n d = .ok ds ∧ WireTag.allocate ds = .ok tags ∧
      Object.resolveFields n d ((ds.map Declared.withoutAuth).zip tags) = .ok fields
  | .database => ∃ pairs es, d.body.pairs? = some pairs ∧
      List.Forall₂ (fun pair e => DatabaseEntry.resolveUnchecked n d pair = .ok e) pairs es ∧
      (es.map DatabaseEntry.name).Nodup
  | _ => False

variable {n : Namespace} {d : Definition} {pairs : List (Yaml.Tree × Yaml.Tree)}

theorem resolve?_of_isSoundApart (h : d.IsSoundApart n) (hpairs : d.body.pairs? = some pairs) :
    (∀ pair ∈ pairs, Declared.HasValidAuth n pair) ∨
      ∃ pair declarator v t, FirstOffence n pairs pair declarator v t ∧
        d.resolve? n =
          .error (.permission (Declared.placeIn d.place pair declarator) v.name t) := by
  unfold IsSoundApart at h
  unfold resolve?
  split at h
  · next hk =>
      obtain ⟨ds, tags, fields, hds, htags, hfields⟩ := h
      obtain ⟨pairs', hpairs', hread⟩ := Object.readFrom_of_declared hds
      cases hpairs.symm.trans hpairs'
      have hlen := (WireTag.allocate_eq_ok htags).1
      rcases Object.resolveFields_of_withoutAuth hread hlen hfields with
        hall | ⟨pair, declarator, v, t, hfirst, herror⟩
      · exact Or.inl hall
      · refine Or.inr ⟨pair, declarator, v, t, hfirst, ?_⟩
        simp only [hk]
        rw [map_eq_error_iff, Object.resolve_eq, hds]
        refine bind_eq_error_iff.mpr (Or.inr ⟨ds, rfl, ?_⟩)
        refine bind_eq_error_iff.mpr (Or.inr ⟨tags, htags, ?_⟩)
        exact bind_eq_error_iff.mpr (Or.inl herror)
  · next hk =>
      obtain ⟨pairs', es, hpairs', hes, hnames⟩ := h
      cases hpairs.symm.trans hpairs'
      rcases Database.resolveEntries_of_unchecked hes hnames (fun _ _ => List.not_mem_nil) with
        hall | ⟨pair, declarator, v, t, hfirst, herror⟩
      · exact Or.inl hall
      · refine Or.inr ⟨pair, declarator, v, t, hfirst, ?_⟩
        simp only [hk]
        rw [map_eq_error_iff, Database.resolve, hpairs]
        exact bind_eq_error_iff.mpr (Or.inl herror)
  · exact h.elim

end Definition

/-- A resolution fails where its first definition fails. -/
theorem Program.resolveSteps_eq_error_of_first {before after : List (Namespace × Definition)}
    {n : Namespace} {d : Definition} {e : SchemaError}
    (hbefore : ∀ s ∈ before, ∃ r, s.2.resolve? s.1 = .ok r) (h : d.resolve? n = .error e) :
    resolveSteps (before ++ (n, d) :: after) = .error e := by
  induction before with
  | nil => exact bind_eq_error_iff.mpr (Or.inl h)
  | cons s before ih =>
      obtain ⟨⟨r, hr⟩, hbefore⟩ := List.forall_mem_cons.mp hbefore
      refine bind_eq_error_iff.mpr (Or.inr ⟨r, hr, ?_⟩)
      exact bind_eq_error_iff.mpr (Or.inl (ih hbefore))

/-- In a resolved program the levels of all fields and entries are those of their auths. An auth
that names something else in a definition that is sound otherwise is reported, for the first
declaration and verb that do, when the resolution comes to the definition. -/
theorem Model.permissions_of_load {source : Source} {root : Text} {p : Program}
    (hload : (Program.load source root).1 = .ok p) :
    (∀ m, resolve p = .ok m → ∀ n d, (n, d) ∈ p.steps →
      (d.keyword = .object →
        ∃ o, m.object? d.key = some o ∧ o.IsPermitted n d ∧ o.identifier.write = .root) ∧
      (d.keyword = .database →
        ∃ b, Database.resolve n d = .ok b ∧ b.IsPermitted n d ∧ (n = p.root → b ∈ m.databases))) ∧
    ∀ before n d after pairs pair declarator a, Program.checkNames [] p.namespaces = .ok () →
      p.steps = before ++ (n, d) :: after → (∀ s ∈ before, ∃ r, s.2.resolve? s.1 = .ok r) →
      d.IsSoundApart n → d.body.pairs? = some pairs → pair ∈ pairs →
      Declared.HasAuth n pair declarator a → ¬ Auth.IsValid a →
        ∃ first name v t, FirstOffence n pairs first name v t ∧
          resolve p = .error (.permission (Declared.placeIn d.place first name) v.name t) := by
  have hfrom := Program.loadedFrom_of_load hload
  constructor
  · intro m h n d hs
    constructor
    · intro hk
      obtain ⟨o, hfound, ho⟩ := object?_of_step hfrom.loaded h hs hk
      exact ⟨o, hfound, Object.isPermitted_of_resolve ho, Object.write_identifier ho⟩
    · intro hk
      obtain ⟨r, hr⟩ := (resolve_eq_ok_iff.mp h).2.1 (n, d) hs
      simp only [Definition.resolve?, hk] at hr
      obtain ⟨b, hb, _⟩ := map_eq_ok_iff.mp hr
      refine ⟨b, hb, Database.isPermitted_of_resolve hb, ?_⟩
      rintro rfl
      rw [databases_eq hfrom.loaded.isLocated hfrom.root_mem h,
        ← Program.filter_steps hfrom.loaded.isLocated hfrom.root_mem]
      have hown : (p.root, d) ∈ p.steps.filter fun s => s.1.path == p.root.path :=
        List.mem_filter.mpr ⟨hs, beq_self_eq_true p.root.path⟩
      exact List.mem_filterMap.mpr ⟨(p.root, d), hown, databaseOf?_eq_some_iff.mpr ⟨hk, hb⟩⟩
  · intro before n d after pairs pair declarator a hnames hsplit hbefore hsound hpairs hpair ha
      hinvalid
    rcases Definition.resolve?_of_isSoundApart hsound hpairs with
      hall | ⟨first, name, v, t, hfirst, herror⟩
    · obtain ⟨_, _, ha', hvalid⟩ := hall pair hpair
      exact absurd ((ha.unique ha').2 ▸ hvalid) hinvalid
    · refine ⟨first, name, v, t, hfirst, bind_eq_error_iff.mpr (Or.inr ⟨(), hnames, ?_⟩)⟩
      rw [hsplit, Program.resolveSteps_eq_error_of_first hbefore herror]
      rfl

/-- An object with the auth of the default class, and an entry that replaces it. -/
def permittedDocuments : Library :=
  .ofList [("a.yaml",
    "Class default:\n auth: Admin\nObject A:\n f: u8\n" ++
    "Database D:\n e:\n  type: A\n  auth:\n   create: Root\n")]

/-- An object with something else than a level. -/
def offendingDocuments : Library :=
  .ofList [("a.yaml", "Object A:\n f:\n  type: u8\n  auth:\n   read: Root\n   update: Everyone\n")]

theorem Model.permissions_of_load_classes :
    (∃ p m d, (Program.load permittedDocuments.source "a.yaml").1 = .ok p ∧ resolve p = .ok m ∧
      (p.root, d) ∈ p.steps ∧ d.keyword = .object ∧
      (∃ o, m.object? d.key = some o ∧ o.IsPermitted p.root d ∧ o.identifier.write = .root) ∧
      m.objects.flatMap (fun o => o.ordered.map fun f => (f.read, f.write)) = [(.admin, .admin)] ∧
      m.databases.flatMap (fun b => b.entries.map fun e => (e.read, e.create)) =
        [(.everyone, .root)]) ∧
    ∃ p n, ∃ d : Definition, ∃ pairs, (Program.load offendingDocuments.source "a.yaml").1 = .ok p ∧
      d.body.pairs? = some pairs ∧ ∃ first name v t, FirstOffence n pairs first name v t ∧
        resolve p = .error (.permission (Declared.placeIn d.place first name) v.name t) := by
  constructor
  · have hok : (do
        let p ← (Program.load permittedDocuments.source "a.yaml").1.toOption
        let m ← (resolve p).toOption
        let d ← p.root.own.definitions.find? fun d => d.keyword == .object
        return (m.objects.flatMap fun o => o.ordered.map fun f => (f.read, f.write),
          m.databases.flatMap fun b => b.entries.map fun e => (e.read, e.create))) =
        some ([(Level.admin, Level.admin)], [(Level.everyone, Level.root)]) := by decide +kernel
    obtain ⟨p, hp, hok⟩ := Option.bind_eq_some_iff.mp hok
    obtain ⟨m, hm, hok⟩ := Option.bind_eq_some_iff.mp hok
    obtain ⟨d, hd, hok⟩ := Option.bind_eq_some_iff.mp hok
    obtain ⟨hobjects, hdatabases⟩ := Prod.mk.inj (Option.some.inj hok)
    have hload := eq_ok_of_toOption_eq_some hp
    have hm := eq_ok_of_toOption_eq_some hm
    have hk : d.keyword = .object := by simpa using List.find?_some hd
    have hs : (p.root, d) ∈ p.steps :=
      Program.mem_steps_of_object (Program.loadedFrom_of_load hload).root_mem
        (List.mem_of_find?_eq_some hd) hk
    exact ⟨p, m, d, hload, hm, hs, hk, ((permissions_of_load hload).1 m hm p.root d hs).1 hk,
      hobjects, hdatabases⟩
  · have hok : (do
        let p ← (Program.load offendingDocuments.source "a.yaml").1.toOption
        let _ ← (Program.checkNames [] p.namespaces).toOption
        let s ← p.steps.head?
        let ds ← (Object.declared s.1 s.2).toOption
        let tags ← (WireTag.allocate ds).toOption
        let _ ← (Object.resolveFields s.1 s.2 ((ds.map Declared.withoutAuth).zip tags)).toOption
        let pairs ← s.2.body.pairs?
        let _ ← pairs.head?
        return (s.2.keyword, ds.map fun x => Auth.get? x.attributes.auth .update)) =
        some (Keyword.object, [some ("Everyone" : Text)]) := by decide +kernel
    obtain ⟨p, hp, hok⟩ := Option.bind_eq_some_iff.mp hok
    obtain ⟨_, hnames, hok⟩ := Option.bind_eq_some_iff.mp hok
    obtain ⟨⟨n, d⟩, hs, hok⟩ := Option.bind_eq_some_iff.mp hok
    obtain ⟨ds, hds, hok⟩ := Option.bind_eq_some_iff.mp hok
    obtain ⟨tags, htags, hok⟩ := Option.bind_eq_some_iff.mp hok
    obtain ⟨fields, hfields, hok⟩ := Option.bind_eq_some_iff.mp hok
    obtain ⟨pairs, hpairs, hok⟩ := Option.bind_eq_some_iff.mp hok
    obtain ⟨pair, hpair, hok⟩ := Option.bind_eq_some_iff.mp hok
    obtain ⟨hk, hupdate⟩ := Prod.mk.inj (Option.some.inj hok)
    have hload := eq_ok_of_toOption_eq_some hp
    have hds := eq_ok_of_toOption_eq_some hds
    obtain ⟨after, hsteps⟩ := List.head?_eq_some_iff.mp hs
    have hsound : d.IsSoundApart n := by
      simp only [Definition.IsSoundApart, show d.keyword = .object from hk]
      exact ⟨ds, tags, fields, hds, eq_ok_of_toOption_eq_some htags,
        eq_ok_of_toOption_eq_some hfields⟩
    obtain ⟨pairs', hpairs', hread⟩ := Object.readFrom_of_declared hds
    cases hpairs.symm.trans hpairs'
    have hpair := List.mem_of_head? hpair
    obtain ⟨x, hx, hfrom⟩ := exists_of_forall₂_left hread pair hpair
    have hget : Auth.get? x.attributes.auth .update = some ("Everyone" : Text) := by
      have hmem :=
        List.mem_map_of_mem (f := fun x : Declared => Auth.get? x.attributes.auth .update) hx
      rw [hupdate] at hmem
      exact List.mem_singleton.mp hmem
    have hinvalid : ¬ Auth.IsValid x.attributes.auth :=
      fun hvalid => absurd (hvalid .update _ hget) (by decide)
    exact ⟨p, n, d, pairs, hload, hpairs, (permissions_of_load hload).2 [] n d after pairs pair _ _
      (eq_ok_of_toOption_eq_some hnames) hsteps (fun _ h => absurd h List.not_mem_nil) hsound hpairs
      hpair hfrom.hasAuth hinvalid⟩

end RecordSchema
