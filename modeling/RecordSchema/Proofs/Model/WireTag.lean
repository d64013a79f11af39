import Mathlib.Data.Int.Interval
import RecordSchema.Proofs.Keyed
import RecordSchema.Proofs.Model.Resolution
import RecordSchema.Store.Library

/-!
# Tags of an object

Explicit tags are checked against the tag of the identifier, but free tags are only kept apart from
explicit ones. The fields of an object other than the identifier have different tags from two
upwards; one of them has the tag of the identifier exactly when the fields without an explicit tag
use up the tags below it that no field claims.
-/

namespace RecordSchema

open Text

namespace WireTag

/-- The tags that the fields other than the identifier claim, in declaration order. -/
def explicit (ds : List Declared) : List Int :=
  (ds.filter fun d => !isIdentifier d).filterMap fun d => d.attributes.tag

/-- Whether a field takes a free tag. -/
def isUntagged (d : Declared) : Bool := !isIdentifier d && d.attributes.tag.isNone

theorem explicit_cons (d : Declared) (ds : List Declared) :
    explicit (d :: ds) =
      (if isIdentifier d then [] else d.attributes.tag.toList) ++ explicit ds := by
  cases hi : isIdentifier d with
  | true => simp [explicit, hi]
  | false =>
      cases ht : d.attributes.tag with
      | none => simp [explicit, hi, ht]
      | some tag => simp [explicit, hi, ht]

section Claims

theorem claim_eq_ok_iff {claimed claimed' : List (Int × Text)} {d : Declared} {tag : Int} :
    claim claimed d tag = .ok claimed' ↔
      1 < tag ∧ tag ≠ Field.identifierTag ∧ tag ∉ claimed.map Prod.fst ∧
        claimed' = (tag, d.declarator.name) :: claimed := by
  unfold claim
  simp only
  split
  · simp only [reduceCtorEq, false_iff, not_and]
    intro h
    omega
  · split
    · next h1 =>
        simp only [reduceCtorEq, false_iff, not_and]
        intro h
        simp only [reserved] at h1
        omega
    · split
      · next h1000 =>
          simp only [reduceCtorEq, false_iff, not_and]
          intro _ h
          exact absurd h1000 h
      · next h0 h1 h1000 =>
          have hpos : 1 < tag := by
            simp only [reserved] at h1
            omega
          cases hl : claimed.lookup tag with
          | some other =>
              have hmem := List.mem_map_of_mem (f := Prod.fst) (mem_of_lookup_eq_some hl)
              simp only [reduceCtorEq, false_iff, not_and]
              intro _ _ hnew
              exact absurd hmem hnew
          | none =>
              simp only [Except.ok.injEq]
              constructor
              · intro h
                exact ⟨hpos, h1000, lookup_eq_none_iff_not_mem.mp hl, h.symm⟩
              · rintro ⟨_, _, _, h⟩
                exact h.symm

/-- A field claims nothing, or the one tag that it declares. -/
theorem claims_cons_eq_ok {claimed claimed' : List (Int × Text)} {d : Declared}
    {rest : List Declared} (h : claims claimed (d :: rest) = .ok claimed') :
    (explicit (d :: rest) = explicit rest ∧ claims claimed rest = .ok claimed') ∨
      ∃ tag c, explicit (d :: rest) = tag :: explicit rest ∧ claim claimed d tag = .ok c ∧
        claims c rest = .ok claimed' := by
  rw [claims] at h
  rw [explicit_cons]
  cases hi : isIdentifier d with
  | true =>
      left
      refine ⟨by simp, ?_⟩
      cases ht : d.attributes.tag with
      | none => simpa only [hi, ht] using h
      | some tag =>
          simp only [hi, ht] at h
          split at h
          · exact h
          · cases h
  | false =>
      cases ht : d.attributes.tag with
      | none =>
          left
          exact ⟨by simp, by simpa only [hi, ht] using h⟩
      | some tag =>
          right
          simp only [hi, ht] at h
          obtain ⟨c, hc, h⟩ := bind_eq_ok_iff.mp h
          exact ⟨tag, c, by simp, hc, h⟩

/-- Claims that are accepted are different tags above the reserved one, none of them that of the
identifier. -/
theorem claims_eq_ok {claimed claimed' : List (Int × Text)} {ds : List Declared}
    (h : claims claimed ds = .ok claimed') (hn : (claimed.map Prod.fst).Nodup) :
    claimed'.map Prod.fst = (explicit ds).reverse ++ claimed.map Prod.fst ∧
      (∀ t ∈ explicit ds, 1 < t ∧ t ≠ Field.identifierTag) ∧ (claimed'.map Prod.fst).Nodup := by
  induction ds generalizing claimed with
  | nil =>
      cases h
      exact ⟨rfl, by simp [explicit], hn⟩
  | cons d rest ih =>
      rcases claims_cons_eq_ok h with ⟨hexplicit, h⟩ | ⟨tag, c, hexplicit, hc, h⟩
      · rw [hexplicit]
        exact ih h hn
      · obtain ⟨hpos, h1000, hnew, rfl⟩ := claim_eq_ok_iff.mp hc
        obtain ⟨heq, hall, hnodup⟩ := ih h (List.nodup_cons.mpr ⟨hnew, hn⟩)
        rw [hexplicit]
        refine ⟨?_, List.forall_mem_cons.mpr ⟨⟨hpos, h1000⟩, hall⟩, hnodup⟩
        rw [heq]
        simp

end Claims

section Assign

/-- The tags that are given to fields in turn: the first ones from `next` on that no field
claims. -/
inductive FreeFrom (claimed : List Int) : (next : Int) → List Int → Prop where
  | nil (next : Int) : FreeFrom claimed next []
  | cons {next tag : Int} {tags : List Int} (hle : next ≤ tag) (hfree : tag ∉ claimed)
      (hskip : ∀ x, next ≤ x → x < tag → x ∈ claimed) (hrest : FreeFrom claimed (tag + 1) tags) :
      FreeFrom claimed next (tag :: tags)

variable {claimed : List Int} {next : Int} {tags : List Int}

theorem FreeFrom.le (h : FreeFrom claimed next tags) : ∀ t ∈ tags, next ≤ t := by
  induction h with
  | nil next => simp
  | cons hle hfree hskip hrest ih =>
      intro t ht
      rcases List.mem_cons.mp ht with rfl | ht
      · exact hle
      · have := ih t ht
        omega

theorem FreeFrom.notMem (h : FreeFrom claimed next tags) : ∀ t ∈ tags, t ∉ claimed := by
  induction h with
  | nil next => simp
  | cons hle hfree hskip hrest ih =>
      intro t ht
      rcases List.mem_cons.mp ht with rfl | ht
      · exact hfree
      · exact ih t ht

theorem FreeFrom.nodup (h : FreeFrom claimed next tags) : tags.Nodup := by
  induction h with
  | nil next => exact List.nodup_nil
  | cons hle hfree hskip hrest ih =>
      refine List.nodup_cons.mpr ⟨?_, ih⟩
      intro hmem
      have := hrest.le _ hmem
      omega

/-- The tags from `next` up to `stop` that no field claims. -/
def unclaimed (claimed : List Int) (next stop : Int) : Finset Int :=
  let between := (List.range (stop - next).toNat).map fun i : Nat => next + (i : Int)
  (between.filter fun x => !claimed.contains x).toFinset

theorem mem_unclaimed {stop x : Int} :
    x ∈ unclaimed claimed next stop ↔ (next ≤ x ∧ x < stop) ∧ x ∉ claimed := by
  simp only [unclaimed, List.mem_toFinset, List.mem_filter, List.mem_map, List.mem_range,
    Bool.not_eq_true', List.contains_eq_mem, decide_eq_false_iff_not]
  refine and_congr_left fun _ => ⟨?_, ?_⟩
  · rintro ⟨i, hi, rfl⟩
    omega
  · rintro ⟨hle, hlt⟩
    exact ⟨(x - next).toNat, by omega, by omega⟩

/-- A tag that no field claims is given exactly when there are fewer of them before it than tags are
given. -/
theorem FreeFrom.mem_iff (h : FreeFrom claimed next tags) {x : Int} (hx : x ∉ claimed)
    (hn : next ≤ x) : x ∈ tags ↔ (unclaimed claimed next x).card < tags.length := by
  induction h with
  | nil next => simp
  | @cons next tag tags hle hfree hskip hrest ih =>
      rw [List.mem_cons, List.length_cons]
      rcases lt_trichotomy x tag with hlt | rfl | hgt
      · exact absurd (hskip x hn hlt) hx
      · have hempty : unclaimed claimed next x = ∅ := by
          apply Finset.eq_empty_of_forall_notMem
          intro y hy
          obtain ⟨⟨hy, hyx⟩, hfresh⟩ := mem_unclaimed.mp hy
          exact hfresh (hskip y hy hyx)
        simp [hempty]
      · have hinsert : unclaimed claimed next x = insert tag (unclaimed claimed (tag + 1) x) := by
          ext y
          rw [Finset.mem_insert, mem_unclaimed, mem_unclaimed]
          constructor
          · rintro ⟨⟨hy, hyx⟩, hfresh⟩
            rcases lt_trichotomy y tag with hyt | rfl | hyt
            · exact absurd (hskip y hy hyt) hfresh
            · exact Or.inl rfl
            · exact Or.inr ⟨⟨hyt, hyx⟩, hfresh⟩
          · rintro (rfl | ⟨⟨hy, hyx⟩, hfresh⟩)
            · exact ⟨⟨hle, hgt⟩, hfree⟩
            · exact ⟨⟨by omega, hyx⟩, hfresh⟩
        have hnew : tag ∉ unclaimed claimed (tag + 1) x := by
          intro hmem
          have := (mem_unclaimed.mp hmem).1.1
          omega
        rw [hinsert, Finset.card_insert_of_notMem hnew, Nat.add_lt_add_iff_right, ← ih hgt]
        simp [hgt.ne']

theorem firstFree_skips (claimed : List Int) (fuel : Nat) (next : Int) :
    next ≤ firstFree claimed fuel next ∧
      (∀ x, next ≤ x → x < firstFree claimed fuel next → x ∈ claimed) ∧
      (firstFree claimed fuel next ∉ claimed ∨ firstFree claimed fuel next = next + fuel) := by
  induction fuel generalizing next with
  | zero =>
      refine ⟨le_refl next, ?_, Or.inr (by simp [firstFree])⟩
      intro x hx hlt
      simp only [firstFree] at hlt
      omega
  | succ fuel ih =>
      rw [firstFree]
      split
      · next hc =>
          obtain ⟨hle, hskip, hend⟩ := ih (next + 1)
          refine ⟨by omega, ?_, ?_⟩
          · intro x hx hlt
            by_cases heq : x = next
            · subst x
              simpa using hc
            · exact hskip x (by omega) hlt
          · rcases hend with hend | hend
            · exact Or.inl hend
            · right
              push_cast
              omega
      · next hc =>
          refine ⟨le_refl next, ?_, Or.inl (by simpa using hc)⟩
          intro x hx hlt
          omega

/-- With as many tries as there are claims, the search ends at a tag that is not claimed. -/
theorem firstFree_notMem (claimed : List Int) (next : Int) :
    firstFree claimed claimed.length next ∉ claimed := by
  obtain ⟨hle, hskip, hend⟩ := firstFree_skips claimed claimed.length next
  rcases hend with hend | hend
  · exact hend
  · intro hmem
    have hsub : Finset.Icc next (next + claimed.length) ⊆ claimed.toFinset := by
      intro x hx
      rw [Finset.mem_Icc] at hx
      rw [List.mem_toFinset]
      by_cases heq : x = next + claimed.length
      · rw [heq, ← hend]
        exact hmem
      · exact hskip x hx.1 (by omega)
    have hcard := (Finset.card_le_card hsub).trans (List.toFinset_card_le claimed)
    rw [Int.card_Icc] at hcard
    omega

/-- The tags of the fields that claim none. -/
def freeTags (ps : List (Declared × Int)) : List Int :=
  (ps.filter fun p => isUntagged p.1).map Prod.snd

/-- The tags of the fields other than the identifier. -/
def otherTags (ps : List (Declared × Int)) : List Int :=
  (ps.filter fun p => !isIdentifier p.1).map Prod.snd

/-- What a field is given: the tag of the identifier, the tag that it declares, or the next free
one. -/
theorem assign_cons_eq_ok {highest : Int} {d : Declared} {rest : List Declared}
    (h : assign claimed highest next (d :: rest) = .ok tags) :
    ∃ tag more, tags = tag :: more ∧
      ((isIdentifier d = true ∧ tag = Field.identifierTag ∧
          assign claimed highest next rest = .ok more) ∨
        (isIdentifier d = false ∧ d.attributes.tag = some tag ∧
          assign claimed highest next rest = .ok more) ∨
        (isIdentifier d = false ∧ d.attributes.tag = none ∧
          tag = firstFree claimed claimed.length next ∧
          assign claimed highest (tag + 1) rest = .ok more)) := by
  rw [assign] at h
  cases hi : isIdentifier d with
  | true =>
      rw [if_pos hi] at h
      obtain ⟨more, hmore, h⟩ := bind_eq_ok_iff.mp h
      cases h
      exact ⟨_, more, rfl, Or.inl ⟨rfl, rfl, hmore⟩⟩
  | false =>
      rw [if_neg (by simp [hi])] at h
      cases ht : d.attributes.tag with
      | some tag =>
          rw [ht] at h
          obtain ⟨more, hmore, h⟩ := bind_eq_ok_iff.mp h
          cases h
          exact ⟨tag, more, rfl, Or.inr (Or.inl ⟨rfl, rfl, hmore⟩)⟩
      | none =>
          rw [ht] at h
          simp only at h
          split at h
          · cases h
          · obtain ⟨more, hmore, h⟩ := bind_eq_ok_iff.mp h
            cases h
            exact ⟨_, more, rfl, Or.inr (Or.inr ⟨rfl, rfl, rfl, hmore⟩)⟩

/-- Fields keep their explicit tags, the others have the first free tags in declaration order. -/
theorem assign_eq_ok {highest : Int} {ds : List Declared}
    (h : assign claimed highest next ds = .ok tags) :
    tags.length = ds.length ∧ FreeFrom claimed next (freeTags (ds.zip tags)) ∧
      (∀ p ∈ ds.zip tags, isIdentifier p.1 → p.2 = Field.identifierTag) ∧
      (otherTags (ds.zip tags)).Perm (explicit ds ++ freeTags (ds.zip tags)) := by
  induction ds generalizing next tags with
  | nil =>
      cases h
      exact ⟨rfl, .nil next, by simp, by simp [otherTags, explicit, freeTags]⟩
  | cons d rest ih =>
      rw [explicit_cons]
      obtain ⟨tag, more, rfl, hstep⟩ := assign_cons_eq_ok h
      rcases hstep with ⟨hi, rfl, hrest⟩ | ⟨hi, ht, hrest⟩ | ⟨hi, ht, rfl, hrest⟩
      · obtain ⟨hlen, hfree, hid, hperm⟩ := ih hrest
        refine ⟨by simp [hlen], ?_, ?_, ?_⟩
        · simpa [freeTags, isUntagged, hi] using hfree
        · simpa [hi] using hid
        · simpa [otherTags, freeTags, isUntagged, hi] using hperm
      · obtain ⟨hlen, hfree, hid, hperm⟩ := ih hrest
        refine ⟨by simp [hlen], ?_, ?_, ?_⟩
        · simpa [freeTags, isUntagged, hi, ht] using hfree
        · simpa [hi] using hid
        · simpa [otherTags, freeTags, isUntagged, hi, ht] using hperm
      · obtain ⟨hlen, hfree, hid, hperm⟩ := ih hrest
        obtain ⟨hle, hskip, _⟩ := firstFree_skips claimed claimed.length next
        refine ⟨by simp [hlen], ?_, ?_, ?_⟩
        · have hfree' := FreeFrom.cons hle (firstFree_notMem claimed next) hskip hfree
          simpa [freeTags, isUntagged, hi, ht] using hfree'
        · simpa [hi] using hid
        · -- The free tag stands in front of the other tags, but behind the explicit ones.
          have hperm' := (hperm.cons (firstFree claimed claimed.length next)).trans
            List.perm_middle.symm
          simpa [otherTags, freeTags, isUntagged, hi, ht] using hperm'

theorem length_freeTags {ds : List Declared} (h : tags.length = ds.length) :
    (freeTags (ds.zip tags)).length = ds.countP isUntagged := by
  have hfst : (ds.zip tags).map Prod.fst = ds := List.map_fst_zip (le_of_eq h.symm)
  calc
    (freeTags (ds.zip tags)).length = (ds.zip tags).countP (isUntagged ∘ Prod.fst) := by
      rw [freeTags, List.length_map, List.countP_eq_length_filter]
      rfl
    _ = ((ds.zip tags).map Prod.fst).countP isUntagged := List.countP_map.symm
    _ = ds.countP isUntagged := by rw [hfst]

end Assign

section Allocate

variable {ds : List Declared} {tags : List Int}

/-- The number of explicit tags below that of the identifier. -/
def lowClaims (ds : List Declared) : Nat :=
  (explicit ds).countP fun t => decide (t < Field.identifierTag)

/-- Whether the fields without an explicit tag leave one of the tags below that of the identifier.
There are 998 of them after the reserved one. -/
def HasRoom (ds : List Declared) : Prop := ds.countP isUntagged + lowClaims ds ≤ 998

instance (ds : List Declared) : Decidable (HasRoom ds) :=
  inferInstanceAs (Decidable (ds.countP isUntagged + lowClaims ds ≤ 998))

theorem card_unclaimed_add (hn : (explicit ds).Nodup) (hlow : ∀ t ∈ explicit ds, 1 < t) :
    (unclaimed (explicit ds).reverse 2 Field.identifierTag).card + lowClaims ds = 998 := by
  let low := (explicit ds).filter fun t => decide (t < Field.identifierTag)
  have hlist : low.toFinset.card = lowClaims ds := by
    rw [List.toFinset_card_of_nodup (hn.filter _), lowClaims, List.countP_eq_length_filter]
  have hsplit : unclaimed (explicit ds).reverse 2 Field.identifierTag =
      Finset.Ico 2 Field.identifierTag \ low.toFinset := by
    ext x
    simp only [mem_unclaimed, low, List.mem_reverse, Finset.mem_sdiff, Finset.mem_Ico,
      List.mem_toFinset, List.mem_filter, decide_eq_true_eq]
    constructor
    · rintro ⟨hx, hfree⟩
      exact ⟨hx, fun hmem => hfree hmem.1⟩
    · rintro ⟨hx, hfree⟩
      exact ⟨hx, fun hmem => hfree ⟨hmem, hx.2⟩⟩
  have hsub : low.toFinset ⊆ Finset.Ico 2 Field.identifierTag := by
    intro x hx
    simp only [low, List.mem_toFinset, List.mem_filter, decide_eq_true_eq] at hx
    have := hlow x hx.1
    rw [Finset.mem_Ico]
    exact ⟨by omega, hx.2⟩
  have hcard : (Finset.Ico (2 : Int) Field.identifierTag).card = 998 := by
    rw [Int.card_Ico]
    rfl
  have hle := Finset.card_le_card hsub
  rw [hsplit, Finset.card_sdiff_of_subset hsub, ← hlist]
  omega

/-- The tags of the fields other than the identifier differ and are above the reserved one; none of
them is that of the identifier exactly when the claims leave room below it. -/
theorem allocate_eq_ok (h : allocate ds = .ok tags) :
    tags.length = ds.length ∧
      (∀ p ∈ ds.zip tags, isIdentifier p.1 → p.2 = Field.identifierTag) ∧
      (otherTags (ds.zip tags)).Nodup ∧ (∀ t ∈ otherTags (ds.zip tags), 1 < t) ∧
      (Field.identifierTag ∉ otherTags (ds.zip tags) ↔ HasRoom ds) := by
  obtain ⟨claimed, hclaims, h⟩ := bind_eq_ok_iff.mp h
  obtain ⟨hclaimed, hexplicit, hnodup⟩ := claims_eq_ok hclaims List.nodup_nil
  rw [List.map_nil, List.append_nil] at hclaimed
  rw [hclaimed] at h hnodup
  obtain ⟨hlen, hfree, hid, hperm⟩ := assign_eq_ok h
  have hn : (explicit ds).Nodup := List.nodup_reverse.mp hnodup
  have hmem (t : Int) : t ∈ otherTags (ds.zip tags) ↔
      t ∈ explicit ds ∨ t ∈ freeTags (ds.zip tags) := by
    rw [hperm.mem_iff, List.mem_append]
  refine ⟨hlen, hid, ?_, ?_, ?_⟩
  · refine hperm.nodup_iff.mpr (hn.append hfree.nodup ?_)
    intro t ht hf
    exact hfree.notMem t hf (List.mem_reverse.mpr ht)
  · intro t ht
    rcases (hmem t).mp ht with ht | ht
    · exact (hexplicit t ht).1
    · have := hfree.le t ht
      simp only [reserved] at this
      omega
  · have hnot : Field.identifierTag ∉ explicit ds := fun hc => (hexplicit _ hc).2 rfl
    have hiff := hfree.mem_iff (x := Field.identifierTag)
      (fun hc => hnot (List.mem_reverse.mp hc)) (by decide)
    have hcard := card_unclaimed_add hn fun t ht => (hexplicit t ht).1
    rw [length_freeTags hlen] at hiff
    have hreserved : reserved + 1 = 2 := rfl
    rw [hreserved] at hiff
    rw [hmem, or_iff_right hnot, hiff, HasRoom]
    omega

end Allocate

end WireTag

namespace Object

/-- The tags of an object differ, that of the identifier is its own and the others are above the
reserved one. -/
def SoundTags (o : Object) : Prop :=
  (o.fields.map Field.tag).Nodup ∧ o.identifier.tag = Field.identifierTag ∧
    ∀ f ∈ o.ordered, f.tag ≠ Field.identifierTag ∧ f.tag ≠ WireTag.reserved ∧ 1 ≤ f.tag

variable {n : Namespace} {d : Definition} {o : Object}

theorem map_tag_of_forall₂ {ps : List (Declared × Int)} {fields : List Field}
    (h : List.Forall₂ (fun p f => p.1.resolve n p.2 = .ok f ∧ f.typeKey ≠ d.key) ps fields) :
    fields.map (fun f => (f.isIdentifier, f.tag)) =
      ps.map fun p => (WireTag.isIdentifier p.1, p.2) := by
  induction h with
  | nil => rfl
  | cons hf _ ih =>
      obtain ⟨type, hr⟩ := Declared.resolves_of_resolve_eq_ok hf.1
      rw [List.map_cons, List.map_cons, ih, hr.isIdentifier_eq, hr.tag_eq]

theorem ofFields_ordered_perm (d : Definition) (fields : List Field) :
    (ofFields d fields).ordered.Perm (fields.filter fun f => !f.isIdentifier) :=
  List.mergeSort_perm _ _

/-- The tags of the resolved fields are those that were given to the declarations. -/
theorem tags_of_resolve_eq_ok (h : resolve n d = .ok o) :
    ∃ ds tags, declared n d = .ok ds ∧ WireTag.allocate ds = .ok tags ∧
      o.identifier.tag = Field.identifierTag ∧
      (o.ordered.map Field.tag).Perm (WireTag.otherTags (ds.zip tags)) := by
  obtain ⟨ds, tags, fields, hds, htags, hfields, rfl⟩ := resolve_eq_ok_iff.mp h
  have hall := resolveFields_eq_ok_iff.mp hfields
  have hmap := map_tag_of_forall₂ hall
  refine ⟨ds, tags, hds, htags, ?_, ?_⟩
  · cases hfind : fields.find? Field.isIdentifier with
    | none => simp [ofFields, hfind, Field.implicitIdentifier]
    | some f =>
        have hmem : (true, f.tag) ∈ fields.map fun f => (f.isIdentifier, f.tag) := by
          rw [List.mem_map]
          exact ⟨f, List.mem_of_find?_eq_some hfind, by simp [List.find?_some hfind]⟩
        rw [hmap, List.mem_map] at hmem
        obtain ⟨q, hq, heq⟩ := hmem
        obtain ⟨hi, ht⟩ := Prod.mk.inj heq
        have hid := (WireTag.allocate_eq_ok htags).2.1 q hq hi
        simp only [ofFields, hfind, Option.getD_some]
        rw [← ht, hid]
  · have hother : (fields.filter fun f => !f.isIdentifier).map Field.tag =
        WireTag.otherTags (ds.zip tags) := by
      have := congrArg (fun l => (l.filter fun b => !b.1).map Prod.snd) hmap
      simpa [List.filter_map, List.map_map, Function.comp_def, WireTag.otherTags] using this
    rw [← hother]
    exact (ofFields_ordered_perm d fields).map Field.tag

theorem soundTags_iff (hid : o.identifier.tag = Field.identifierTag)
    (hnodup : (o.ordered.map Field.tag).Nodup) (hlow : ∀ t ∈ o.ordered.map Field.tag, 1 < t) :
    o.SoundTags ↔ Field.identifierTag ∉ o.ordered.map Field.tag := by
  constructor
  · rintro ⟨_, _, hall⟩ hmem
    obtain ⟨f, hf, hft⟩ := List.mem_map.mp hmem
    exact (hall f hf).1 hft
  · intro hnot
    refine ⟨?_, hid, ?_⟩
    · rw [fields, List.map_cons, hid]
      exact List.nodup_cons.mpr ⟨hnot, hnodup⟩
    · intro f hf
      have hmem := List.mem_map_of_mem (f := Field.tag) hf
      have := hlow _ hmem
      refine ⟨fun heq => hnot (heq ▸ hmem), ?_, by omega⟩
      simp only [WireTag.reserved]
      omega

end Object

namespace Model

/-- In every object of a model the identifier has its own tag and the other fields have different
tags above the reserved one. None of these is the tag of the identifier exactly when the declared
fields leave room below it. -/
theorem soundTags_iff_hasRoom {p : Program} {m : Model} (h : Model.resolve p = .ok m) {o : Object}
    (ho : o ∈ m.allObjects) :
    ∃ n d ds, (n, d) ∈ p.steps ∧ Object.resolve n d = .ok o ∧ Object.declared n d = .ok ds ∧
      o.identifier.tag = Field.identifierTag ∧ (o.ordered.map Field.tag).Nodup ∧
      (∀ f ∈ o.ordered, 1 < f.tag) ∧ (o.SoundTags ↔ WireTag.HasRoom ds) := by
  obtain ⟨n, d, hs, _, hr⟩ := (mem_allObjects h).mp ho
  obtain ⟨ds, tags, hds, htags, hid, hperm⟩ := Object.tags_of_resolve_eq_ok hr
  obtain ⟨_, _, hnodup, hlow, hroom⟩ := WireTag.allocate_eq_ok htags
  have hnodup' := hperm.nodup_iff.mpr hnodup
  have hlow' : ∀ t ∈ o.ordered.map Field.tag, 1 < t := fun t ht => hlow t (hperm.mem_iff.mp ht)
  refine ⟨n, d, ds, hs, hr, hds, hid, hnodup', ?_, ?_⟩
  · intro f hf
    exact hlow' _ (List.mem_map_of_mem hf)
  · rw [Object.soundTags_iff hid hnodup' hlow', hperm.mem_iff]
    exact hroom

/-- A document with one object of five fields. Two of them claim tags, and the identifier its
own. -/
def taggedDocument : Library :=
  .ofList [("a.yaml", "Object A:\n a: u8\n b:\n  type: u8\n  tag: 2\n c: u8\n" ++
    " id:\n  tag: 1000\n d:\n  type: u8\n  tag: 999\n")]

theorem soundTags_iff_hasRoom_tagged :
    ∃ p m o, (Program.load taggedDocument.source "a.yaml").1 = .ok p ∧ Model.resolve p = .ok m ∧
      o ∈ m.allObjects ∧
      ∃ n d ds, (n, d) ∈ p.steps ∧ Object.resolve n d = .ok o ∧ Object.declared n d = .ok ds ∧
        o.identifier.tag = Field.identifierTag ∧ (o.ordered.map Field.tag).Nodup ∧
        (∀ f ∈ o.ordered, 1 < f.tag) ∧ (o.SoundTags ↔ WireTag.HasRoom ds) := by
  have hok : (do
      let p ← (Program.load taggedDocument.source "a.yaml").1.toOption
      let m ← (Model.resolve p).toOption
      return m.allObjects.length) = some 1 := by decide +kernel
  obtain ⟨p, hp, hok⟩ := Option.bind_eq_some_iff.mp hok
  obtain ⟨m, hm, hok⟩ := Option.bind_eq_some_iff.mp hok
  have hlen : m.allObjects.length = 1 := Option.some.inj hok
  obtain ⟨o, ho⟩ := List.exists_mem_of_length_pos (hlen ▸ Nat.one_pos)
  have hm := eq_ok_of_toOption_eq_some hm
  exact ⟨p, m, o, eq_ok_of_toOption_eq_some hp, hm, ho, soundTags_iff_hasRoom hm ho⟩

end Model

end RecordSchema
