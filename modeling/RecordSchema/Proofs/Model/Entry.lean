import RecordSchema.Proofs.Model.Listing

/-!
# The entries of a resolved database

An entry is read with its class, its levels are checked, and then it gets what its type stands for.
The entries of a database come from its declarations one by one and have different names.
-/

namespace RecordSchema

open Text

namespace DatabaseEntry

/-- Reads an entry of a database and its type, which cannot be empty. -/
def declared (n : Namespace) (owner : Definition) (pair : Yaml.Tree × Yaml.Tree) :
    Except SchemaError (Declared × Text) := do
  let declarator ← Declared.readName owner.place pair
  let place := { Declared.placeOf owner.place pair with member := declarator.name }
  if declarator.isAction then .error (.malformed place .actionEntry)
  else
    let attributes ← Declared.readBody n place pair.2
    match attributes.type with
    | none => .error (.malformed place .missingType)
    | some type =>
      if type = [] then .error (.malformed place .missingType)
      else .ok ({ declarator, attributes, place }, type)

variable {n : Namespace} {owner : Definition} {pair : Yaml.Tree × Yaml.Tree} {d : Declared}
variable {e : DatabaseEntry}

theorem resolve_eq (n : Namespace) (owner : Definition) (pair : Yaml.Tree × Yaml.Tree) :
    resolve n owner pair = declared n owner pair >>= fun x =>
      Auth.check x.1.place x.1.attributes.auth >>= fun _ => back n owner x.1 (outline x.1 x.2) := by
  unfold resolve declared
  cases Declared.readName owner.place pair with
  | error cause => rfl
  | ok declarator =>
      simp only [bind, Except.bind]
      split
      · rfl
      · cases Declared.readBody n _ pair.2 with
        | error cause => rfl
        | ok attributes =>
            simp only
            cases attributes.type with
            | none => rfl
            | some type =>
                simp only
                split
                · rfl
                · rfl

theorem resolve_eq_ok_iff :
    resolve n owner pair = .ok e ↔
      ∃ d type, declared n owner pair = .ok (d, type) ∧
        Auth.check d.place d.attributes.auth = .ok () ∧
        back n owner d (outline d type) = .ok e := by
  rw [resolve_eq]
  constructor
  · intro h
    obtain ⟨⟨d, type⟩, hd, h⟩ := bind_eq_ok_iff.mp h
    obtain ⟨_, hcheck, h⟩ := bind_eq_ok_iff.mp h
    exact ⟨d, type, hd, hcheck, h⟩
  · rintro ⟨d, type, hd, hcheck, h⟩
    exact bind_eq_ok_iff.mpr ⟨(d, type), hd, bind_eq_ok_iff.mpr ⟨(), hcheck, h⟩⟩

/-- What an entry stands for: a database, or an object that is held once or in a collection. -/
inductive Backed (n : Namespace) (d : Declared) (e : DatabaseEntry) : DatabaseEntry → Prop where
  | subdatabase {sub : Definition} (h : n.lookup? .database e.backingType = some sub) :
      Backed n d e { e with kind := .subdatabase, backingKey := sub.key }
  | collection {object : Definition} {bound : Nat}
      (h : n.lookup? .object e.backingType = some object) (hd : d.declarator.isRepeated = true) :
      Backed n d e { e with kind := .collection, backingKey := object.key, bound }
  | resource {object : Definition} (h : n.lookup? .object e.backingType = some object)
      (hd : d.declarator.isRepeated = false) : Backed n d e { e with backingKey := object.key }

theorem backed_of_back {e' : DatabaseEntry} (h : back n owner d e = .ok e') : Backed n d e e' := by
  unfold back at h
  split at h
  · next sub hsub =>
      split at h
      · cases h
      · split at h
        · cases h
        · cases h
          exact .subdatabase hsub
  · split at h
    · cases h
    · next object hobject =>
        split at h
        · next hd =>
            obtain ⟨bound, _, h⟩ := bind_eq_ok_iff.mp h
            cases h
            exact .collection hobject hd
        · next hd =>
            cases h
            exact .resource hobject (Bool.eq_false_iff.mpr hd)

end DatabaseEntry

namespace Database

variable {n : Namespace} {owner : Definition}

theorem resolveEntries_eq_ok {seen : List Text} {pairs : List (Yaml.Tree × Yaml.Tree)}
    {es : List DatabaseEntry} (h : resolveEntries n owner seen pairs = .ok es) :
    List.Forall₂ (fun pair e => DatabaseEntry.resolve n owner pair = .ok e) pairs es := by
  induction pairs generalizing seen es with
  | nil =>
      cases h
      exact .nil
  | cons pair rest ih =>
      obtain ⟨e, he, h⟩ := bind_eq_ok_iff.mp h
      split at h
      · cases h
      · obtain ⟨more, hmore, h⟩ := bind_eq_ok_iff.mp h
        cases h
        exact .cons he (ih hmore)

theorem resolve_eq_ok {b : Database} (h : resolve n owner = .ok b) :
    ∃ pairs, owner.body.pairs? = some pairs ∧
      List.Forall₂ (fun pair e => DatabaseEntry.resolve n owner pair = .ok e) pairs b.entries := by
  unfold resolve at h
  split at h
  · cases h
  · next pairs hpairs =>
      obtain ⟨entries, hentries, h⟩ := bind_eq_ok_iff.mp h
      cases h
      exact ⟨pairs, hpairs, resolveEntries_eq_ok hentries⟩

/-- Each entry of a database comes from a declaration. -/
theorem exists_pair_of_mem {b : Database} (h : resolve n owner = .ok b) {e : DatabaseEntry}
    (he : e ∈ b.entries) : ∃ pair, DatabaseEntry.resolve n owner pair = .ok e := by
  obtain ⟨pairs, _, hall⟩ := resolve_eq_ok h
  obtain ⟨pair, _, hpair⟩ := exists_of_forall₂_left hall.flip e he
  exact ⟨pair, hpair⟩

end Database

end RecordSchema
