import RecordSchema.Proofs.Model.Allocation
import RecordSchema.Proofs.Model.Field
import RecordSchema.Proofs.Model.Permission
import RecordSchema.Proofs.Program.Lookup
import RecordSchema.Store.Library

/-!
# Objects with one more field

A field that is declared after all others and claims no tag changes nothing for the others: claims
are collected before tags are given, and the free tags go to the fields in declaration order. The
object keeps its fields as they are, and the new one takes the smallest tag that none of them has.
-/

namespace RecordSchema

open Text

section Resembling

/-- Whether two definitions are the same for the declarations that refer to them: constants by their
text, classes by their attributes, and other definitions by their key alone. -/
structure Definition.Resembles (d d' : Definition) : Prop where
  keyword_eq : d'.keyword = d.keyword
  name_eq : d'.name = d.name
  origin_eq : d'.origin = d.origin
  constant_eq : d.keyword = .constant → d'.body.node.value = d.body.node.value
  class_eq : d.keyword = .attributeClass →
    (Attributes.ofClass (some d'.body)).toOption = (Attributes.ofClass (some d.body)).toOption

theorem Definition.Resembles.refl (d : Definition) : d.Resembles d :=
  ⟨rfl, rfl, rfl, fun _ => rfl, fun _ => rfl⟩

theorem Definition.Resembles.key_eq {d d' : Definition} (h : d.Resembles d') : d'.key = d.key := by
  rw [key, key, h.origin_eq, h.name_eq]

/-- An object may take the place of another one of its name. -/
theorem Scope.forall₂_setIn {d : Definition} {ds : List Definition} (hk : d.keyword = .object)
    (horigin : ∀ e ∈ ds, e.origin = d.origin) (hmem : d.named ∈ ds.map Definition.named) :
    List.Forall₂ Definition.Resembles ds (setIn d ds) := by
  induction ds with
  | nil => cases hmem
  | cons e rest ih =>
      obtain ⟨he, hrest⟩ := List.forall_mem_cons.mp horigin
      rw [setIn]
      split
      · next hnamed =>
          obtain ⟨hkeyword, hname⟩ := Key.mk.inj (Definition.isNamed_iff.mp hnamed)
          refine .cons ⟨hkeyword.symm, hname.symm, he.symm, ?_, ?_⟩ ?_
          · intro hconstant
            cases (hkeyword.trans hk).symm.trans hconstant
          · intro hclass
            cases (hkeyword.trans hk).symm.trans hclass
          · exact List.forall₂_same.mpr fun x _ => .refl x
      · next hnamed =>
          refine .cons (.refl e) (ih hrest ?_)
          refine (List.mem_cons.mp hmem).resolve_left fun heq => hnamed ?_
          exact Definition.isNamed_iff.mpr heq.symm

theorem Scope.map_get?_of_forall₂ {s s' : Scope} {β : Type} {f : Definition → β} {k : Keyword}
    (h : List.Forall₂ Definition.Resembles s.definitions s'.definitions)
    (hf : ∀ d d', d.keyword = k → d.Resembles d' → f d' = f d) (name : Text) :
    (s'.get? k name).map f = (s.get? k name).map f := by
  unfold get?
  generalize s.definitions = ds, s'.definitions = ds' at h ⊢
  induction h with
  | nil => rfl
  | @cons d d' ds ds' hd _ ih =>
      have hnamed : d'.isNamed k name = d.isNamed k name := by
        rw [Definition.isNamed, Definition.isNamed, hd.keyword_eq, hd.name_eq]
      rw [List.find?_cons, List.find?_cons, hnamed]
      cases hk : d.isNamed k name with
      | true =>
          have hkeyword : d.keyword = k := by
            simp only [Definition.isNamed, Bool.and_eq_true, beq_iff_eq] at hk
            exact hk.1
          exact congrArg some (hf d d' hkeyword hd)
      | false => exact ih

/-- The kinds of definitions that a type may name, by their keys. -/
theorem TypeReference.definition?_eq (n : Namespace) (base : Text) :
    definition? n base =
      (((n.lookup? .enum base).map Definition.key).map fun key => ⟨.enum, base, key, 0⟩).or
        ((((n.lookup? .bitmask base).map Definition.key).map fun key => ⟨.bitmask, base, key, 0⟩).or
          (((n.lookup? .object base).map Definition.key).map fun key =>
            ⟨.object, base, key, 0⟩)) := by
  unfold definition?
  cases n.lookup? .enum base with
  | some d => rfl
  | none =>
      cases n.lookup? .bitmask base with
      | some d => rfl
      | none =>
          cases n.lookup? .object base with
          | some d => rfl
          | none => rfl

namespace Namespace

/-- Whether two namespaces hold definitions that are the same for declarations, in the same
order. -/
structure Resembles (n n' : Namespace) : Prop where
  own : List.Forall₂ Definition.Resembles n.own.definitions n'.own.definitions
  external : List.Forall₂ Definition.Resembles n.external.definitions n'.external.definitions

/-- The body of an object is nothing that the declarations of its document see. -/
theorem resembles_set {n : Namespace} (hn : n.Declares) {d : Definition}
    (hd : d ∈ n.own.definitions) (hk : d.keyword = .object) (body : Yaml.Tree) :
    n.Resembles { n with own := n.own.set { d with body } } := by
  have hmem : d.named ∈ n.own.definitions.map Definition.named := List.mem_map_of_mem hd
  refine ⟨Scope.forall₂_setIn hk (fun e he => ?_) hmem, ?_⟩
  · rw [hn.origin_eq e he]
    exact (hn.origin_eq d hd).symm
  · exact List.forall₂_same.mpr fun x _ => .refl x

/-- The attributes of the class of a name, nothing inside if they cannot be read. -/
def classAttributes? (n : Namespace) (name : Text) : Option (Option Attributes) :=
  (n.lookup? .attributeClass name).map fun c => (Attributes.ofClass (some c.body)).toOption

theorem classOf_eq_ok_iff {n : Namespace} {place : Location} {own a : Attributes} :
    n.classOf place own = .ok a ↔
      (n.classAttributes? (own.className.getD defaultClass) = none ∧ own.className = none ∧
        a = {}) ∨
        n.classAttributes? (own.className.getD defaultClass) = some (some a) := by
  unfold classOf classAttributes?
  simp only
  cases n.lookup? .attributeClass (own.className.getD defaultClass) with
  | none =>
      cases own.className with
      | none => simp [eq_comm]
      | some name => simp
  | some c =>
      cases hclass : Attributes.ofClass (some c.body) with
      | ok a' => simp [hclass, Except.toOption]
      | error e => simp [hclass, Except.toOption]

section Lookup

variable {n n' : Namespace} (h : n.Resembles n')

include h

/-- What a look-up gives is the same as far as declarations see it. -/
theorem Resembles.map_lookup? {β : Type} {f : Definition → β} {k : Keyword}
    (hf : ∀ d d', d.keyword = k → d.Resembles d' → f d' = f d) (name : Text) :
    (n'.lookup? k name).map f = (n.lookup? k name).map f := by
  rw [lookup?_eq_or, lookup?_eq_or, Option.map_or, Option.map_or,
    Scope.map_get?_of_forall₂ h.own hf, Scope.map_get?_of_forall₂ h.external hf]

theorem Resembles.classAttributes?_eq : n'.classAttributes? = n.classAttributes? :=
  funext (h.map_lookup? fun _ _ hk hd => hd.class_eq hk)

theorem Resembles.positive_eq : n'.positive = n.positive := by
  have htext : n'.countText? = n.countText? := by
    funext text
    unfold countText?
    rw [h.map_lookup? fun _ _ hk hd => hd.constant_eq hk]
  unfold positive
  rw [htext]

theorem Resembles.typeReference_eq : TypeReference.resolve n' = TypeReference.resolve n := by
  have hkey (k : Keyword) (name : Text) :
      (n'.lookup? k name).map Definition.key = (n.lookup? k name).map Definition.key :=
    h.map_lookup? (fun _ _ _ hd => hd.key_eq) name
  have hdefinition : TypeReference.definition? n' = TypeReference.definition? n := by
    funext base
    rw [TypeReference.definition?_eq, TypeReference.definition?_eq, hkey, hkey, hkey]
  have hplain : TypeReference.plain n' = TypeReference.plain n := by
    unfold TypeReference.plain
    rw [hdefinition]
  unfold TypeReference.resolve
  rw [hplain, h.positive_eq]

/-- A field with a tag is resolved by what its namespace offers. -/
theorem Resembles.resolve_eq : Declared.resolve n' = Declared.resolve n := by
  unfold Declared.resolve Declared.length
  rw [h.typeReference_eq, h.positive_eq]

end Lookup

end Namespace

end Resembling

namespace Declared

/-- Whether two pairs of bodies declare the same, on the same line. -/
structure ReadsAlike (pair pair' : Yaml.Tree × Yaml.Tree) : Prop where
  key_eq : pair'.1.node.value = pair.1.node.value
  line_eq : pair'.1.line = pair.1.line
  body_eq : (Body.read (some pair'.2)).toOption = (Body.read (some pair.2)).toOption

variable {n n' : Namespace} {entity : Location} {pair pair' : Yaml.Tree × Yaml.Tree}

theorem readBody_eq_ok_iff {place : Location} {body : Yaml.Tree} {a : Attributes} :
    readBody n place body = .ok a ↔
      ∃ b base, (Body.read (some body)).toOption = some b ∧
        n.classOf place b.attributes = .ok base ∧
        a = b.attributes.inherit base := by
  unfold readBody
  cases hread : Body.read (some body) with
  | error e => simp [Except.toOption]
  | ok b =>
      constructor
      · intro h
        obtain ⟨base, hbase, h⟩ := bind_eq_ok_iff.mp h
        cases h
        exact ⟨b, base, rfl, hbase, rfl⟩
      · rintro ⟨b', base, hb, hbase, rfl⟩
        cases hb
        exact bind_eq_ok_iff.mpr ⟨base, hbase, rfl⟩

theorem readField_of_readsAlike (hn : n.Resembles n') (hpair : ReadsAlike pair pair') {x : Declared}
    (h : readField n entity pair = .ok x) : readField n' entity pair' = .ok x := by
  have hplace : placeOf entity pair' = placeOf entity pair := by
    rw [placeOf, placeOf, hpair.key_eq, hpair.line_eq]
  obtain ⟨declarator, hname, h⟩ := bind_eq_ok_iff.mp h
  obtain ⟨attributes, hbody, h⟩ := bind_eq_ok_iff.mp h
  have hname' : readName entity pair' = .ok declarator := by
    have hparse := parse_of_readName hname
    rw [← hpair.key_eq] at hparse
    rw [readName, hparse]
  have hbody' : readBody n' { placeOf entity pair' with member := declarator.name } pair'.2 =
      .ok attributes := by
    obtain ⟨b, base, hread, hbase, ha⟩ := readBody_eq_ok_iff.mp hbody
    refine readBody_eq_ok_iff.mpr ⟨b, base, hpair.body_eq.trans hread, ?_, ha⟩
    rw [Namespace.classOf_eq_ok_iff, hn.classAttributes?_eq]
    exact Namespace.classOf_eq_ok_iff.mp hbase
  refine bind_eq_ok_iff.mpr ⟨declarator, hname', bind_eq_ok_iff.mpr ⟨attributes, hbody', ?_⟩⟩
  rw [hplace]
  exact h

theorem readFields_of_readsAlike (hn : n.Resembles n') {seen : List Text}
    {pairs pairs' : List (Yaml.Tree × Yaml.Tree)} (hpairs : List.Forall₂ ReadsAlike pairs pairs')
    {ds : List Declared} (h : readFields n entity seen pairs = .ok ds) :
    readFields n' entity seen pairs' = .ok ds := by
  induction hpairs generalizing seen ds with
  | nil => exact h
  | cons hpair _ ih =>
      obtain ⟨x, hx, h⟩ := bind_eq_ok_iff.mp h
      refine bind_eq_ok_iff.mpr ⟨x, readField_of_readsAlike hn hpair hx, ?_⟩
      split at h
      · cases h
      · next hnew =>
          obtain ⟨more, hmore, h⟩ := bind_eq_ok_iff.mp h
          rw [if_neg hnew]
          exact bind_eq_ok_iff.mpr ⟨more, ih hmore, h⟩

/-- A last field is read after the others, and has another name. -/
theorem readFields_concat_eq_ok_iff {seen : List Text} {pairs : List (Yaml.Tree × Yaml.Tree)}
    {ds' : List Declared} :
    readFields n entity seen (pairs ++ [pair]) = .ok ds' ↔
      ∃ ds x, readFields n entity seen pairs = .ok ds ∧ readField n entity pair = .ok x ∧
        x.declarator.name ∉ seen ∧ x.declarator.name ∉ ds.map (fun d => d.declarator.name) ∧
        ds' = ds ++ [x] := by
  induction pairs generalizing seen ds' with
  | nil =>
      constructor
      · intro h
        obtain ⟨x, hx, h⟩ := bind_eq_ok_iff.mp h
        split at h
        · cases h
        · next hnew =>
            cases h
            exact ⟨[], x, rfl, hx, by simpa using hnew, List.not_mem_nil, rfl⟩
      · rintro ⟨ds, x, hds, hx, hnew, _, rfl⟩
        cases hds
        refine bind_eq_ok_iff.mpr ⟨x, hx, ?_⟩
        rw [if_neg (by simpa using hnew)]
        rfl
  | cons first rest ih =>
      constructor
      · intro h
        obtain ⟨y, hy, h⟩ := bind_eq_ok_iff.mp h
        split at h
        · cases h
        · next hnew =>
            obtain ⟨more, hmore, h⟩ := bind_eq_ok_iff.mp h
            cases h
            obtain ⟨ds, x, hds, hx, hseen, hother, rfl⟩ := ih.mp hmore
            obtain ⟨hne, hseen⟩ := not_or.mp (mt List.mem_cons.mpr hseen)
            refine ⟨y :: ds, x, bind_eq_ok_iff.mpr ⟨y, hy, ?_⟩, hx, hseen, ?_, rfl⟩
            · rw [if_neg hnew]
              exact bind_eq_ok_iff.mpr ⟨ds, hds, rfl⟩
            · exact mt List.mem_cons.mp (not_or.mpr ⟨hne, hother⟩)
      · rintro ⟨ds, x, hds, hx, hseen, hother, rfl⟩
        obtain ⟨y, hy, h⟩ := bind_eq_ok_iff.mp hds
        split at h
        · cases h
        · next hnew =>
            obtain ⟨more, hmore, h⟩ := bind_eq_ok_iff.mp h
            cases h
            obtain ⟨hne, hother⟩ := not_or.mp (mt List.mem_cons.mpr hother)
            refine bind_eq_ok_iff.mpr ⟨y, hy, ?_⟩
            rw [if_neg hnew]
            refine bind_eq_ok_iff.mpr
              ⟨more ++ [x], ih.mpr ⟨more, x, hmore, hx, ?_, hother, rfl⟩, rfl⟩
            exact mt List.mem_cons.mp (not_or.mpr ⟨hne, hseen⟩)

/-- Whether a pair declares no identifier and claims no tag. -/
structure ClaimsNothing (pair : Yaml.Tree × Yaml.Tree) : Prop where
  name_ne : ∀ declarator, Declarator.parse pair.1.node.value = .ok declarator →
    declarator.name ≠ Field.identifierName
  tag_eq_none : ∀ body, Body.read (some pair.2) = .ok body → body.attributes.tag = none

theorem ClaimsNothing.isUntagged (h : ClaimsNothing pair) {x : Declared}
    (hx : readField n entity pair = .ok x) :
    WireTag.isIdentifier x = false ∧ x.attributes.tag = none := by
  have hparse := (readFrom_of_readField hx).hasAuth.declarator_eq
  have hid : WireTag.isIdentifier x = false := by
    rw [WireTag.isIdentifier, beq_eq_false_iff_ne]
    exact h.name_ne _ hparse
  obtain ⟨declarator, hname, hx⟩ := bind_eq_ok_iff.mp hx
  obtain ⟨attributes, hbody, hx⟩ := bind_eq_ok_iff.mp hx
  cases hparse.symm.trans (parse_of_readName hname)
  obtain ⟨b, base, hread, _, rfl⟩ := readBody_eq_ok_iff.mp hbody
  have htag : (b.attributes.inherit base).tag = none :=
    h.tag_eq_none b (eq_ok_of_toOption_eq_some hread)
  simp only at hx
  split at hx
  · next hid' => cases hid.symm.trans hid'
  · obtain ⟨x', hx', hx⟩ := bind_eq_ok_iff.mp hx
    cases hx'
    split at hx
    · cases hx
    · have heq := congrArg (fun y : Declared => y.attributes.tag) (Except.ok.inj hx)
      exact ⟨hid, heq.symm.trans htag⟩

end Declared

namespace WireTag

variable {claimed tags tags' : List Int} {next : Int} {ds : List Declared} {x : Declared}

/-- Fields are given the same tags whatever comes after them and whatever the greatest tag is. -/
theorem exists_append_of_assign {highest highest' : Int} {more : List Declared}
    (h : assign claimed highest next ds = .ok tags)
    (h' : assign claimed highest' next (ds ++ more) = .ok tags') :
    ∃ rest, tags' = tags ++ rest := by
  induction ds generalizing next tags tags' with
  | nil =>
      cases h
      exact ⟨tags', rfl⟩
  | cons d ds ih =>
      obtain ⟨tag, given, rfl, hstep⟩ := assign_cons_eq_ok h
      obtain ⟨tag', given', rfl, hstep'⟩ := assign_cons_eq_ok h'
      have hsame : tag' = tag ∧ ∃ next', assign claimed highest next' ds = .ok given ∧
          assign claimed highest' next' (ds ++ more) = .ok given' := by
        rcases hstep with ⟨hi, rfl, hrest⟩ | ⟨hi, ht, hrest⟩ | ⟨hi, ht, rfl, hrest⟩
        · rcases hstep' with ⟨_, rfl, hrest'⟩ | ⟨hi', _⟩ | ⟨hi', _⟩
          · exact ⟨rfl, next, hrest, hrest'⟩
          · cases hi.symm.trans hi'
          · cases hi.symm.trans hi'
        · rcases hstep' with ⟨hi', _⟩ | ⟨_, ht', hrest'⟩ | ⟨_, ht', _⟩
          · cases hi.symm.trans hi'
          · exact ⟨Option.some.inj (ht'.symm.trans ht), next, hrest, hrest'⟩
          · cases ht.symm.trans ht'
        · rcases hstep' with ⟨hi', _⟩ | ⟨_, ht', _⟩ | ⟨_, _, rfl, hrest'⟩
          · cases hi.symm.trans hi'
          · cases ht.symm.trans ht'
          · exact ⟨rfl, _, hrest, hrest'⟩
      obtain ⟨rfl, next', hrest, hrest'⟩ := hsame
      obtain ⟨rest, rfl⟩ := ih hrest hrest'
      exact ⟨rest, rfl⟩

theorem claims_of_isAcceptable (h : IsAcceptable ds) : claims [] ds = .ok (claimsOf ds) := by
  rcases claims_cases ds isAcceptable_nil with
    ⟨_, hclaims⟩ | ⟨kept, d, after, e, rfl, _, hoffends, _⟩
  · exact hclaims
  · rw [List.append_cons] at h
    exact absurd (isAcceptable_concat.mp h.left).2 hoffends.not_fits

/-- A last field without a claim is given a tag, and the others keep theirs. It is the smallest tag
that none of them has. -/
theorem exists_allocate_concat (h : allocate ds = .ok tags) (hid : isIdentifier x = false)
    (htag : x.attributes.tag = none) :
    ∃ tag, allocate (ds ++ [x]) = .ok (tags ++ [tag]) ∧ 2 ≤ tag ∧ tag ∉ otherTags (ds.zip tags) ∧
      ∀ t, 2 ≤ t → t < tag → t ∈ otherTags (ds.zip tags) := by
  have hds : IsAcceptable ds := by
    rcases allocate_cases ds with ⟨hds, _⟩ | ⟨_, _, _, _, _, _, _, he⟩
    · exact hds
    · cases he.symm.trans h
  have hfits : Fits ds x := by
    constructor
    · intro hid'
      cases hid.symm.trans hid'
    · intro _ tag htag'
      cases htag.symm.trans htag'
  have hclaims := claims_of_isAcceptable (isAcceptable_concat.mpr ⟨hds, hfits⟩)
  obtain ⟨tags', htags'⟩ := exists_allocate hclaims
  have hassigns := assigns_of_allocate hclaims htags'
  -- The claims of the other fields are all there are, so that tags are given from the same claims.
  obtain ⟨claimed, hclaimed, hassign⟩ := bind_eq_ok_iff.mp h
  cases (claims_of_isAcceptable hds).symm.trans hclaimed
  obtain ⟨claimed', hclaimed', hassign'⟩ := bind_eq_ok_iff.mp htags'
  cases hclaims.symm.trans hclaimed'
  rw [claimsOf_concat_of_none (Or.inr htag)] at hassign'
  obtain ⟨rest, rfl⟩ := exists_append_of_assign hassign hassign'
  obtain ⟨hlen, _, _, hperm⟩ := assign_eq_ok hassign
  obtain ⟨tag, rfl⟩ : ∃ tag, rest = [tag] := by
    have hlen' := hassigns.length_eq
    rw [List.length_append, List.length_append, hlen] at hlen'
    exact List.length_eq_one_iff.mp (Nat.add_left_cancel hlen')
  have huntagged : isUntagged x = true := by simp [isUntagged, hid, htag]
  have hfree : freeTags ((ds ++ [x]).zip (tags ++ [tag])) = freeTags (ds.zip tags) ++ [tag] := by
    rw [List.zip_append hlen.symm, freeTags, List.filter_append, List.map_append, freeTags]
    simp [huntagged]
  have hmem : tag ∈ freeTags ((ds ++ [x]).zip (tags ++ [tag])) := by
    rw [hfree]
    exact List.mem_append_right _ List.mem_cons_self
  have hother : otherTags ((ds ++ [x]).zip (tags ++ [tag])) = otherTags (ds.zip tags) ++ [tag] := by
    rw [List.zip_append hlen.symm, otherTags, List.filter_append, List.map_append, otherTags]
    simp [hid]
  have hnew : tag ∉ otherTags (ds.zip tags) := by
    have hnodup := (allocate_eq_ok htags').2.2.1
    rw [hother] at hnodup
    exact fun hin => List.disjoint_of_nodup_append hnodup hin List.mem_cons_self
  refine ⟨tag, htags', (hassigns.free tag hmem).1, hnew, fun t ht hlt => hperm.mem_iff.mpr ?_⟩
  have hexplicit : explicit (ds ++ [x]) = explicit ds := by
    simp [explicit, hid, htag]
  rcases hassigns.smallest tag hmem t ht hlt with hclaim | hgiven
  · exact List.mem_append_left _ (hexplicit ▸ hclaim)
  · rw [hfree, List.mem_append, List.mem_singleton] at hgiven
    exact List.mem_append_right _ (hgiven.resolve_right hlt.ne)

end WireTag

namespace Object

variable {n n' : Namespace} {d : Definition} {o o' : Object} {f : Field}

/-- The smallest tag from two on that no field of an object other than its identifier has. -/
def nextTag (o : Object) : Int :=
  WireTag.firstFree (o.ordered.map Field.tag) (o.ordered.map Field.tag).length 2

theorem nextTag_notMem (o : Object) : o.nextTag ∉ o.ordered.map Field.tag :=
  WireTag.firstFree_notMem _ _

theorem eq_nextTag {tag : Int} (hle : 2 ≤ tag) (hfree : tag ∉ o.ordered.map Field.tag)
    (hsmallest : ∀ t, 2 ≤ t → t < tag → t ∈ o.ordered.map Field.tag) : tag = o.nextTag := by
  have hfirst : o.nextTag ≤ tag := WireTag.firstFree_le hle hfree
  obtain ⟨hge, _⟩ :=
    WireTag.firstFree_skips (o.ordered.map Field.tag) (o.ordered.map Field.tag).length 2
  rcases hfirst.lt_or_eq with hlt | heq
  · exact absurd (hsmallest _ hge hlt) o.nextTag_notMem
  · exact heq.symm

/-- Whether an object has the fields of another one as they are, and one more. -/
structure Extends (o o' : Object) (f : Field) : Prop where
  identifier_eq : o'.identifier = o.identifier
  field?_eq : ∀ g ∈ o.fields, o'.field? g.name = some g
  perm : o'.ordered.Perm (f :: o.ordered)
  sublist : o.ordered.Sublist o'.ordered
  name_notMem : f.name ∉ o.fields.map Field.name
  tag_notMem : f.tag ∉ o.ordered.map Field.tag

theorem extends_of_perm (h : resolve n d = .ok o) {d' : Definition} (h' : resolve n' d' = .ok o')
    (hid : o'.identifier = o.identifier) (hperm : o'.ordered.Perm (f :: o.ordered)) :
    o.Extends o' f := by
  have hfields : o'.fields.Perm (f :: o.fields) := by
    rw [fields, fields, hid]
    exact (hperm.cons _).trans (.swap _ _ _)
  have hnames : ((f :: o.fields).map Field.name).Nodup :=
    (hfields.map Field.name).nodup_iff.mp (nodup_name_fields h')
  have hsorted := ordered_pairwise_tag h'
  have htags : (o'.ordered.map Field.tag).Nodup :=
    List.pairwise_map.mpr (hsorted.imp fun hlt => hlt.ne)
  have hantisymm : Std.Antisymm fun g g' : Field => g.tag < g'.tag :=
    ⟨fun _ _ hlt hlt' => absurd hlt (lt_asymm hlt')⟩
  refine ⟨hid, fun g hg => ?_, hperm, ?_, (List.nodup_cons.mp hnames).1, ?_⟩
  · exact find?_key_eq_some (nodup_name_fields h') (hfields.mem_iff.mpr (List.mem_cons_of_mem f hg))
  · exact List.sublist_of_subperm_of_pairwise
      ((List.sublist_cons_self f _).subperm.trans hperm.symm.subperm)
        (ordered_pairwise_tag h) hsorted
  · exact (List.nodup_cons.mp ((hperm.map Field.tag).nodup_iff.mp htags)).1

theorem ofFields_concat (d : Definition) (fields : List Field) (hf : f.isIdentifier = false) :
    (ofFields d (fields ++ [f])).identifier = (ofFields d fields).identifier ∧
      (ofFields d (fields ++ [f])).ordered.Perm (f :: (ofFields d fields).ordered) := by
  constructor
  · simp [ofFields, List.find?_append, hf]
  · have hfilter : ((fields ++ [f]).filter fun g => !g.isIdentifier) =
        (fields.filter fun g => !g.isIdentifier) ++ [f] := by simp [hf]
    refine (ofFields_ordered_perm d _).trans ?_
    rw [hfilter]
    exact (List.perm_append_singleton f _).trans ((ofFields_ordered_perm d fields).symm.cons f)

theorem resolveFields_concat_eq_ok_iff {ps : List (Declared × Int)} {x : Declared} {tag : Int}
    {fields fields' : List Field} (hfields : resolveFields n d ps = .ok fields) :
    resolveFields n d (ps ++ [(x, tag)]) = .ok fields' ↔
      ∃ f, x.resolve n tag = .ok f ∧ f.typeKey ≠ d.key ∧ fields' = fields ++ [f] := by
  induction ps generalizing fields fields' with
  | nil =>
      cases hfields
      constructor
      · intro h
        obtain ⟨f, hf, h⟩ := bind_eq_ok_iff.mp h
        split at h
        · cases h
        · next hkey =>
            cases h
            exact ⟨f, hf, hkey, rfl⟩
      · rintro ⟨f, hf, hkey, rfl⟩
        refine bind_eq_ok_iff.mpr ⟨f, hf, ?_⟩
        rw [if_neg hkey]
        rfl
  | cons p rest ih =>
      obtain ⟨g, hg, hfields⟩ := bind_eq_ok_iff.mp hfields
      split at hfields
      · cases hfields
      · next hkey =>
          obtain ⟨more, hmore, hfields⟩ := bind_eq_ok_iff.mp hfields
          cases hfields
          constructor
          · intro h
            obtain ⟨g', hg', h⟩ := bind_eq_ok_iff.mp h
            cases hg.symm.trans hg'
            rw [if_neg hkey] at h
            obtain ⟨more', hmore', h⟩ := bind_eq_ok_iff.mp h
            cases h
            obtain ⟨f, hf, hne, rfl⟩ := (ih hmore).mp hmore'
            exact ⟨f, hf, hne, rfl⟩
          · rintro ⟨f, hf, hne, rfl⟩
            refine bind_eq_ok_iff.mpr ⟨g, hg, ?_⟩
            rw [if_neg hkey]
            exact bind_eq_ok_iff.mpr ⟨more ++ [f], (ih hmore).mpr ⟨f, hf, hne, rfl⟩, rfl⟩

/-- Whether a body has the pairs of another one, read alike, and then one more. -/
def Appends (body body' : Yaml.Tree) (pair : Yaml.Tree × Yaml.Tree) : Prop :=
  ∃ pairs pairs', body.pairs? = some pairs ∧ List.Forall₂ Declared.ReadsAlike pairs pairs' ∧
    body'.pairs? = some (pairs' ++ [pair])

theorem declared_append_eq_ok_iff (hn : n.Resembles n') {body' : Yaml.Tree}
    {pair : Yaml.Tree × Yaml.Tree} (hbody : Appends d.body body' pair) {ds ds' : List Declared}
    (hds : declared n d = .ok ds) :
    declared n' { d with body := body' } = .ok ds' ↔
      ∃ x, Declared.readField n' d.place pair = .ok x ∧
        x.declarator.name ∉ ds.map (fun y => y.declarator.name) ∧ ds' = ds ++ [x] := by
  obtain ⟨pairs, pairs', hpairs, halike, hpairs'⟩ := hbody
  unfold declared at hds ⊢
  rw [hpairs] at hds
  have hread := Declared.readFields_of_readsAlike hn halike hds
  simp only [hpairs']
  constructor
  · intro h
    obtain ⟨_, x, hds', hx, _, hother, rfl⟩ := Declared.readFields_concat_eq_ok_iff.mp h
    cases hread.symm.trans hds'
    exact ⟨x, hx, hother, rfl⟩
  · rintro ⟨x, hx, hother, rfl⟩
    exact Declared.readFields_concat_eq_ok_iff.mpr
      ⟨ds, x, hread, hx, List.not_mem_nil, hother, rfl⟩

section Append

variable {body' : Yaml.Tree} {pair : Yaml.Tree × Yaml.Tree} (hn : n.Resembles n')
  (hbody : Appends d.body body' pair) (hpair : Declared.ClaimsNothing pair)

include hn hbody hpair

/-- An object is extended exactly if the new field can be read, has a new name, and can be resolved
with the next tag without referring to the object. -/
theorem resolve_append_eq_ok_iff {ds : List Declared} {tags : List Int} {fields : List Field}
    (hds : declared n d = .ok ds) (htags : WireTag.allocate ds = .ok tags)
    (hfields : resolveFields n d (ds.zip tags) = .ok fields) :
    resolve n' { d with body := body' } = .ok o' ↔
      ∃ x f, Declared.readField n' d.place pair = .ok x ∧
        x.declarator.name ∉ ds.map (fun y => y.declarator.name) ∧
        x.resolve n' (ofFields d fields).nextTag = .ok f ∧ f.typeKey ≠ d.key ∧
        o' = ofFields d (fields ++ [f]) := by
  have hlen := (WireTag.allocate_eq_ok htags).1
  have hallocate : ∀ x, Declared.readField n' d.place pair = .ok x →
      WireTag.allocate (ds ++ [x]) = .ok (tags ++ [(ofFields d fields).nextTag]) := by
    intro x hx
    obtain ⟨hid, htag⟩ := hpair.isUntagged hx
    obtain ⟨tag, hok, hle, hnew, hsmallest⟩ := WireTag.exists_allocate_concat htags hid htag
    obtain ⟨_, _, hds', htags', _, hperm⟩ :=
      tags_of_resolve_eq_ok (resolve_eq_ok_iff.mpr ⟨ds, tags, fields, hds, htags, hfields, rfl⟩)
    cases hds.symm.trans hds'
    cases htags.symm.trans htags'
    rw [hok, eq_nextTag hle (mt hperm.mem_iff.mp hnew)
      fun t ht hlt => hperm.mem_iff.mpr (hsmallest t ht hlt)]
  -- The other fields are resolved as before, since only the key of the object matters to them.
  have hresolve : resolveFields n' { d with body := body' } (ds.zip tags) = .ok fields := by
    have hall := resolveFields_eq_ok_iff.mp hfields
    rw [resolveFields_eq_ok_iff, hn.resolve_eq]
    exact hall
  rw [resolve_eq_ok_iff]
  constructor
  · rintro ⟨ds', tags', fields', hds', htags', hfields', rfl⟩
    obtain ⟨x, hx, hname, rfl⟩ := (declared_append_eq_ok_iff hn hbody hds).mp hds'
    cases (hallocate x hx).symm.trans htags'
    rw [List.zip_append hlen.symm] at hfields'
    obtain ⟨f, hf, hkey, rfl⟩ := (resolveFields_concat_eq_ok_iff hresolve).mp hfields'
    exact ⟨x, f, hx, hname, hf, hkey, rfl⟩
  · rintro ⟨x, f, hx, hname, hf, hkey, rfl⟩
    refine ⟨ds ++ [x], _, fields ++ [f],
      (declared_append_eq_ok_iff hn hbody hds).mpr ⟨x, hx, hname, rfl⟩, hallocate x hx, ?_, rfl⟩
    rw [List.zip_append hlen.symm]
    exact (resolveFields_concat_eq_ok_iff hresolve).mpr ⟨f, hf, hkey, rfl⟩

/-- An object with one more field, declared last and without a tag, keeps its fields as they are:
each is found by its name, and they stand in the same order. The new field has the smallest tag
that none of them has. Only the new field can be the reason why the extended object is refused. -/
theorem extends_of_resolve_append (h : resolve n d = .ok o) :
    (∀ o', resolve n' { d with body := body' } = .ok o' →
      ∃ x f, Declared.readField n' d.place pair = .ok x ∧ x.resolve n' o.nextTag = .ok f ∧
        o.Extends o' f) ∧
    ∀ x f, Declared.readField n' d.place pair = .ok x → x.resolve n' o.nextTag = .ok f →
      f.name ∉ o.fields.map Field.name → f.typeKey ≠ d.key →
      ∃ o', resolve n' { d with body := body' } = .ok o' := by
  obtain ⟨ds, tags, fields, hds, htags, hfields, rfl⟩ := resolve_eq_ok_iff.mp h
  constructor
  · intro o' h'
    obtain ⟨x, f, hx, _, hf, _, rfl⟩ :=
      (resolve_append_eq_ok_iff hn hbody hpair hds htags hfields).mp h'
    obtain ⟨type, hr⟩ := Declared.resolves_of_resolve_eq_ok hf
    obtain ⟨hid, hperm⟩ :=
      ofFields_concat d fields (hr.isIdentifier_eq.trans (hpair.isUntagged hx).1)
    exact ⟨x, f, hx, hf, extends_of_perm h h' hid hperm⟩
  · intro x f hx hf hname hkey
    refine ⟨_, (resolve_append_eq_ok_iff hn hbody hpair hds htags hfields).mpr
      ⟨x, f, hx, fun hmem => hname ?_, hf, hkey, rfl⟩⟩
    obtain ⟨type, hr⟩ := Declared.resolves_of_resolve_eq_ok hf
    rw [hr.name_eq]
    rw [← List.map_fst_zip (WireTag.allocate_eq_ok htags).1.ge, List.map_map] at hmem
    rw [Function.comp_def, ← map_name_of_resolveFields hfields] at hmem
    obtain ⟨g, hg, hgname⟩ := List.mem_map.mp hmem
    exact List.mem_map.mpr ⟨g, mem_fields_of_mem hds htags hfields hg, hgname⟩

end Append

/-- A body that is a mapping, with one more pair. -/
def appending (body : Yaml.Tree) (pair : Yaml.Node × Yaml.Node) : Yaml.Tree :=
  match body.node with
  | .mapping line tag pairs => body.other (.mapping line tag (pairs ++ [pair]))
  | _ => body

theorem appends_appending {body : Yaml.Tree} {line : Nat} {tag : Text}
    {pairs : List (Yaml.Node × Yaml.Node)} (h : body.node = .mapping line tag pairs)
    (pair : Yaml.Node × Yaml.Node) :
    Appends body (appending body pair)
      ((body.other pair.1).target, (body.other pair.2).target) := by
  obtain ⟨node, anchors⟩ := body
  cases h
  refine ⟨_, _, rfl, List.forall₂_same.mpr fun x _ => ⟨rfl, rfl, rfl⟩, ?_⟩
  exact congrArg some List.map_append

/-- A document with an object whose fields claim tags, take free ones and use a class. -/
def taggedFields : Library :=
  .ofList [("a.yaml",
      "Import: b.yaml\nConstant N: 3\nEnum E: {X: 1}\nObject O:\n a: {type: E, tag: 5}\n" ++
      " b[N]: u8\n c: {type: string:9, class: Far}\n"),
    ("b.yaml", "Class Far: {auth: Root}\n")]

/-- A field of an enum type, in the line after the document. -/
def enumField : Yaml.Node × Yaml.Node :=
  (.scalar 8 Yaml.Tag.str .plain "e", .scalar 8 Yaml.Tag.str .plain "E")

/-- The definition of an object with one more field. -/
def widened (d : Definition) : Definition := { d with body := appending d.body enumField }

/-- The tags of the declared fields of an object. -/
def tags? (n : Namespace) (d : Definition) : Option (List Int) :=
  (declared n d >>= WireTag.allocate).toOption

theorem extends_of_resolve_append_between :
    ∃ p d o o' f, (Program.load taggedFields.source "a.yaml").1 = .ok p ∧
      d ∈ p.root.own.definitions ∧ resolve p.root d = .ok o ∧
      resolve { p.root with own := p.root.own.set (widened d) } (widened d) = .ok o' ∧
      tags? p.root d = some [5, 2, 3] ∧
      tags? { p.root with own := p.root.own.set (widened d) } (widened d) = some [5, 2, 3, 4] ∧
      o.Extends o' f := by
  have hok : (do
      let p ← (Program.load taggedFields.source "a.yaml").1.toOption
      let d ← p.root.own.get? .object "O"
      let _ ← (resolve p.root d).toOption
      let _ ← (resolve { p.root with own := p.root.own.set (widened d) } (widened d)).toOption
      return (d.body.node.sameShape (.mapping 0 [] []), tags? p.root d,
        tags? { p.root with own := p.root.own.set (widened d) } (widened d))) =
        some (true, some [5, 2, 3], some [5, 2, 3, 4]) := by
    decide +kernel
  obtain ⟨p, hp, hok⟩ := Option.bind_eq_some_iff.mp hok
  obtain ⟨d, hd, hok⟩ := Option.bind_eq_some_iff.mp hok
  obtain ⟨o, ho, hok⟩ := Option.bind_eq_some_iff.mp hok
  obtain ⟨o', ho', hok⟩ := Option.bind_eq_some_iff.mp hok
  obtain ⟨hshape, hok⟩ := Prod.mk.inj (Option.some.inj hok)
  obtain ⟨htags, htags'⟩ := Prod.mk.inj hok
  have hload := eq_ok_of_toOption_eq_some hp
  have ho := eq_ok_of_toOption_eq_some ho
  have ho' := eq_ok_of_toOption_eq_some ho'
  obtain ⟨hmem, hk, _⟩ := Scope.mem_of_get?_eq_some hd
  have hfrom := Program.loadedFrom_of_load hload
  have hn := Namespace.resembles_set (hfrom.loaded.declares hfrom.root_mem) hmem hk
    (appending d.body enumField)
  obtain ⟨line, tag, pairs, hnode⟩ : ∃ line tag pairs, d.body.node = .mapping line tag pairs := by
    cases hnode : d.body.node with
    | mapping line tag pairs => exact ⟨line, tag, pairs, rfl⟩
    | _ =>
        rw [hnode] at hshape
        cases hshape
  have hpair : Declared.ClaimsNothing
      ((d.body.other enumField.1).target, (d.body.other enumField.2).target) := by
    constructor
    · intro declarator hparse
      have hname : (Declarator.parse "e").toOption.map Declarator.name = some ("e" : Text) := by
        decide +kernel
      rw [show Declarator.parse "e" = .ok declarator from hparse] at hname
      rw [Option.some.inj hname]
      decide
    · intro body hread
      cases hread
      rfl
  obtain ⟨x, f, _, _, hextends⟩ :=
    (extends_of_resolve_append hn (appends_appending hnode enumField) hpair ho).1 o' ho'
  exact ⟨p, d, o, o', f, hload, hmem, ho, ho', htags, htags', hextends⟩

end Object

end RecordSchema
