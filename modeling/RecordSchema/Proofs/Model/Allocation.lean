import RecordSchema.Proofs.Model.WireTag

/-!
# Allocation of tags

Tags are given exactly if the explicit ones can be kept, and otherwise the first field whose tag
cannot be kept is refused. Fields without an explicit tag take the smallest tags from two on that
are not claimed. Among as many tags as there are fields other than the identifier, those that are
not claimed are no fewer than the fields that take one, so that there is always a tag left.
-/

namespace RecordSchema

open Text

namespace WireTag

/-- Whether explicit tags can be kept: an identifier claims its own tag only, and the other fields
claim different tags above the reserved one, none of them that of the identifier. -/
structure IsAcceptable (ds : List Declared) : Prop where
  identifier : ∀ d ∈ ds, isIdentifier d = true → ∀ tag, d.attributes.tag = some tag →
    tag = Field.identifierTag
  others : ∀ tag ∈ explicit ds, 2 ≤ tag ∧ tag ≠ Field.identifierTag
  nodup : (explicit ds).Nodup

/-- Why the explicit tag of a field is refused after other fields. -/
inductive Offends (before : List Declared) (d : Declared) : SchemaError → Prop where
  | identifier {tag : Int} (hid : isIdentifier d = true) (htag : d.attributes.tag = some tag)
      (hne : tag ≠ Field.identifierTag) :
      Offends before d (.tagConflict d.place tag [d.declarator.name]
        "cannot be used by the identifier field: it always has tag 1000")
  | notPositive {tag : Int} (hid : isIdentifier d = false) (htag : d.attributes.tag = some tag)
      (hle : tag ≤ 0) : Offends before d (.malformed d.place (.tagNotPositive tag))
  | reserved (hid : isIdentifier d = false) (htag : d.attributes.tag = some 1) :
      Offends before d (.tagConflict d.place 1 [d.declarator.name] "is reserved")
  | identifierTag (hid : isIdentifier d = false) (htag : d.attributes.tag = some 1000) :
      Offends before d (.tagConflict d.place 1000 [d.declarator.name]
        "is reserved for the identifier field")
  | claimed {tag : Int} {other : Declared} (hid : isIdentifier d = false)
      (htag : d.attributes.tag = some tag) (hother : other ∈ before)
      (hid' : isIdentifier other = false) (htag' : other.attributes.tag = some tag) :
      Offends before d (.tagConflict d.place tag [other.declarator.name, d.declarator.name] [])

/-- Whether fields have the tags they are to be given. -/
structure Assigns (ds : List Declared) (tags : List Int) : Prop where
  length_eq : tags.length = ds.length
  identifier : ∀ p ∈ ds.zip tags, isIdentifier p.1 = true → p.2 = Field.identifierTag
  explicit : ∀ p ∈ ds.zip tags, isIdentifier p.1 = false → ∀ tag, p.1.attributes.tag = some tag →
    p.2 = tag
  /-- Free tags ascend in declaration order. -/
  ascending : (freeTags (ds.zip tags)).Pairwise (· < ·)
  free : ∀ tag ∈ freeTags (ds.zip tags), 2 ≤ tag ∧ tag ∉ WireTag.explicit ds
  smallest : ∀ tag ∈ freeTags (ds.zip tags), ∀ x, 2 ≤ x → x < tag →
    x ∈ WireTag.explicit ds ∨ x ∈ freeTags (ds.zip tags)
  le_count : ∀ tag ∈ freeTags (ds.zip tags),
    tag ≤ (ds.filter fun d => !isIdentifier d).length + 1

section Acceptable

variable {before ds : List Declared} {d : Declared} {e : SchemaError}

theorem explicit_append (ds ds' : List Declared) :
    explicit (ds ++ ds') = explicit ds ++ explicit ds' := by
  simp [explicit]

theorem mem_explicit {tag : Int} :
    tag ∈ explicit ds ↔ ∃ d ∈ ds, isIdentifier d = false ∧ d.attributes.tag = some tag := by
  simp [explicit, and_assoc]

theorem isAcceptable_nil : IsAcceptable [] := ⟨by simp, by simp [explicit], List.nodup_nil⟩

theorem IsAcceptable.left (h : IsAcceptable (before ++ ds)) : IsAcceptable before := by
  have hexplicit := explicit_append before ds
  refine ⟨fun d hd => h.identifier d (List.mem_append_left _ hd), fun tag htag => ?_, ?_⟩
  · exact h.others tag (hexplicit ▸ List.mem_append_left _ htag)
  · exact (hexplicit ▸ h.nodup).of_append_left

/-- Whether the explicit tag of a field can be kept after other fields. -/
structure Fits (before : List Declared) (d : Declared) : Prop where
  identifier : isIdentifier d = true → ∀ tag, d.attributes.tag = some tag →
    tag = Field.identifierTag
  other : isIdentifier d = false → ∀ tag, d.attributes.tag = some tag →
    2 ≤ tag ∧ tag ≠ Field.identifierTag ∧ tag ∉ explicit before

theorem isAcceptable_concat :
    IsAcceptable (before ++ [d]) ↔ IsAcceptable before ∧ Fits before d := by
  have hlast : ∀ tag, tag ∈ explicit [d] ↔
      isIdentifier d = false ∧ d.attributes.tag = some tag := by
    intro tag
    rw [mem_explicit]
    simp
  constructor
  · intro h
    refine ⟨h.left, h.identifier d (List.mem_append_right _ List.mem_cons_self), ?_⟩
    intro hid tag htag
    have hmem : tag ∈ explicit [d] := (hlast tag).mpr ⟨hid, htag⟩
    have hexplicit := explicit_append before [d]
    obtain ⟨hle, hne⟩ := h.others tag (hexplicit ▸ List.mem_append_right _ hmem)
    refine ⟨hle, hne, fun hbefore => ?_⟩
    exact List.disjoint_of_nodup_append (hexplicit ▸ h.nodup) hbefore hmem
  · rintro ⟨h, hfits⟩
    have hsingle : (explicit [d]).Nodup := by
      rw [explicit_cons]
      split
      · exact List.nodup_nil
      · cases d.attributes.tag with
        | none => exact List.nodup_nil
        | some tag => exact List.nodup_singleton tag
    refine ⟨?_, ?_, ?_⟩
    · intro x hx
      rcases List.mem_append.mp hx with hx | hx
      · exact h.identifier x hx
      · rw [List.mem_singleton.mp hx]
        exact hfits.identifier
    · intro tag htag
      rw [explicit_append, List.mem_append] at htag
      rcases htag with htag | htag
      · exact h.others tag htag
      · obtain ⟨hid, htag⟩ := (hlast tag).mp htag
        obtain ⟨hle, hne, _⟩ := hfits.other hid tag htag
        exact ⟨hle, hne⟩
    · rw [explicit_append]
      refine h.nodup.append hsingle fun tag hbefore htag => ?_
      obtain ⟨hid, htag⟩ := (hlast tag).mp htag
      exact (hfits.other hid tag htag).2.2 hbefore

theorem Offends.not_fits (h : Offends before d e) : ¬ Fits before d := by
  intro hfits
  cases h with
  | identifier hid htag hne => exact hne (hfits.identifier hid _ htag)
  | notPositive hid htag hle =>
      have := (hfits.other hid _ htag).1
      omega
  | reserved hid htag => exact absurd (hfits.other hid _ htag).1 (by decide)
  | identifierTag hid htag => exact (hfits.other hid _ htag).2.1 rfl
  | claimed hid htag hother hid' htag' =>
      exact (hfits.other hid _ htag).2.2 (mem_explicit.mpr ⟨_, hother, hid', htag'⟩)

end Acceptable

section Claims

variable {before ds : List Declared} {d : Declared}

/-- What fields claim, the latest first. -/
def claimsOf (ds : List Declared) : List (Int × Text) :=
  ((ds.filter fun d => !isIdentifier d).filterMap fun d =>
    d.attributes.tag.map fun tag => (tag, d.declarator.name)).reverse

theorem mem_claimsOf {tag : Int} {name : Text} :
    (tag, name) ∈ claimsOf ds ↔ ∃ d ∈ ds, isIdentifier d = false ∧
      d.attributes.tag = some tag ∧ d.declarator.name = name := by
  simp [claimsOf, and_assoc]

theorem map_fst_claimsOf (ds : List Declared) :
    (claimsOf ds).map Prod.fst = (explicit ds).reverse := by
  simp only [claimsOf, explicit, List.map_reverse, List.map_filterMap, Option.map_map]
  congr 2
  funext d
  cases d.attributes.tag with
  | none => rfl
  | some tag => rfl

theorem claimsOf_concat_of_none (h : isIdentifier d = true ∨ d.attributes.tag = none) :
    claimsOf (before ++ [d]) = claimsOf before := by
  rcases h with h | h
  · simp [claimsOf, h]
  · by_cases hid : isIdentifier d = true
    · simp [claimsOf, hid]
    · simp [claimsOf, hid, h]

theorem claimsOf_concat_of_some {tag : Int} (hid : isIdentifier d = false)
    (htag : d.attributes.tag = some tag) :
    claimsOf (before ++ [d]) = (tag, d.declarator.name) :: claimsOf before := by
  simp [claimsOf, hid, htag]

/-- The claim of a field after others is refused, or added to theirs. -/
theorem claim_cases (before : List Declared) {tag : Int} (hid : isIdentifier d = false)
    (htag : d.attributes.tag = some tag) :
    (∃ e, Offends before d e ∧ claim (claimsOf before) d tag = .error e) ∨
      Fits before d ∧ claim (claimsOf before) d tag = .ok (claimsOf (before ++ [d])) := by
  by_cases hpos : tag ≤ 0
  · exact Or.inl ⟨_, .notPositive hid htag hpos, by simp [claim, hpos]⟩
  · by_cases hone : tag = 1
    · subst hone
      exact Or.inl ⟨_, .reserved hid htag, by simp [claim, WireTag.reserved]⟩
    · by_cases hown : tag = 1000
      · subst hown
        refine Or.inl ⟨_, .identifierTag hid htag, ?_⟩
        simp [claim, WireTag.reserved, Field.identifierTag]
      · cases hlookup : (claimsOf before).lookup tag with
        | some name =>
            obtain ⟨other, hother, hid', htag', rfl⟩ :=
              mem_claimsOf.mp (mem_of_lookup_eq_some hlookup)
            refine Or.inl ⟨_, .claimed hid htag hother hid' htag', ?_⟩
            simp [claim, hpos, hone, hown, hlookup, WireTag.reserved, Field.identifierTag]
        | none =>
            have hnew := lookup_eq_none_iff_not_mem.mp hlookup
            rw [map_fst_claimsOf, List.mem_reverse] at hnew
            refine Or.inr ⟨⟨fun hid' => ?_, fun _ tag' htag' => ?_⟩, ?_⟩
            · cases hid.symm.trans hid'
            · cases htag.symm.trans htag'
              exact ⟨by omega, hown, hnew⟩
            · rw [claimsOf_concat_of_some hid htag]
              simp [claim, hpos, hone, hown, hlookup, WireTag.reserved, Field.identifierTag]

/-- The step from the claims of some fields to those of one more. -/
theorem claims_cons_cases (before : List Declared) (d : Declared) (rest : List Declared) :
    (∃ e, Offends before d e ∧ claims (claimsOf before) (d :: rest) = .error e) ∨
      Fits before d ∧
        claims (claimsOf before) (d :: rest) = claims (claimsOf (before ++ [d])) rest := by
  rw [claims]
  cases htag : d.attributes.tag with
  | none =>
      refine Or.inr ⟨⟨fun _ tag h => ?_, fun _ tag h => ?_⟩, ?_⟩
      · cases htag.symm.trans h
      · cases htag.symm.trans h
      · rw [claimsOf_concat_of_none (Or.inr htag)]
        cases isIdentifier d <;> rfl
  | some tag =>
      cases hid : isIdentifier d with
      | true =>
          by_cases hown : tag = Field.identifierTag
          · refine Or.inr ⟨⟨fun _ tag' h => ?_, fun hid' => ?_⟩, ?_⟩
            · cases htag.symm.trans h
              exact hown
            · cases hid.symm.trans hid'
            · rw [claimsOf_concat_of_none (Or.inl hid)]
              simp only [hown, if_true]
          · exact Or.inl ⟨_, .identifier hid htag hown, by simp only [hown, if_false]⟩
      | false =>
          rcases claim_cases before hid htag with ⟨e, hoffends, he⟩ | ⟨hfits, hok⟩
          · exact Or.inl ⟨e, hoffends, bind_eq_error_iff.mpr (Or.inl he)⟩
          · refine Or.inr ⟨hfits, ?_⟩
            simp only [hok]
            rfl

/-- All claims are kept, or the first that cannot be kept is refused. -/
theorem claims_cases (rest : List Declared) (h : IsAcceptable before) :
    (IsAcceptable (before ++ rest) ∧
        claims (claimsOf before) rest = .ok (claimsOf (before ++ rest))) ∨
      ∃ kept d after e, rest = kept ++ d :: after ∧ IsAcceptable (before ++ kept) ∧
        Offends (before ++ kept) d e ∧ claims (claimsOf before) rest = .error e := by
  induction rest generalizing before with
  | nil =>
      rw [List.append_nil]
      exact Or.inl ⟨h, rfl⟩
  | cons d rest ih =>
      rcases claims_cons_cases before d rest with ⟨e, hoffends, he⟩ | ⟨hfits, hnext⟩
      · refine Or.inr ⟨[], d, rest, e, rfl, ?_, ?_, he⟩
        · rwa [List.append_nil]
        · rwa [List.append_nil]
      · rw [hnext, List.append_cons]
        rcases ih (isAcceptable_concat.mpr ⟨h, hfits⟩) with
          hall | ⟨kept, x, after, e, rfl, hkept, hrefused⟩
        · exact Or.inl hall
        · rw [← List.append_cons] at hkept hrefused
          exact Or.inr ⟨d :: kept, x, after, e, rfl, hkept, hrefused⟩

end Claims

section Room

variable {claimed tags : List Int} {next stop : Int}

theorem FreeFrom.pairwise_lt (h : FreeFrom claimed next tags) : tags.Pairwise (· < ·) := by
  induction h with
  | nil next => exact .nil
  | cons hle hfree hskip hrest ih => exact .cons (fun t ht => hrest.le t ht) ih

theorem FreeFrom.smallest (h : FreeFrom claimed next tags) {t x : Int} (ht : t ∈ tags)
    (hx : next ≤ x) (hlt : x < t) : x ∈ claimed ∨ x ∈ tags := by
  induction h with
  | nil next => cases ht
  | @cons next tag tags hle hfree hskip hrest ih =>
      rcases lt_trichotomy x tag with hlow | rfl | hhigh
      · exact Or.inl (hskip x hx hlow)
      · exact Or.inr List.mem_cons_self
      · rcases List.mem_cons.mp ht with rfl | ht
        · omega
        · exact (ih ht hhigh).imp_right (List.mem_cons_of_mem _)

theorem card_unclaimed_le (claimed : List Int) (next : Int) {stop stop' : Int} (h : stop ≤ stop') :
    (unclaimed claimed next stop).card ≤ (unclaimed claimed next stop').card := by
  refine Finset.card_le_card fun x hx => ?_
  obtain ⟨⟨hle, hlt⟩, hfree⟩ := mem_unclaimed.mp hx
  exact mem_unclaimed.mpr ⟨⟨hle, hlt.trans_le h⟩, hfree⟩

/-- Tags stay below a limit under which no fewer are free than are given. -/
theorem FreeFrom.lt_of_length_le (h : FreeFrom claimed next tags)
    (hroom : tags.length ≤ (unclaimed claimed next stop).card) : ∀ t ∈ tags, t < stop := by
  intro t ht
  have hgiven := (h.mem_iff (h.notMem t ht) (h.le t ht)).mp ht
  by_contra hge
  have := card_unclaimed_le claimed next (not_lt.mp hge)
  omega

theorem firstFree_le {x : Int} (hx : next ≤ x) (hfree : x ∉ claimed) :
    firstFree claimed claimed.length next ≤ x := by
  by_contra hlt
  exact hfree ((firstFree_skips claimed claimed.length next).2.1 x hx (not_le.mp hlt))

/-- Taking the first free tag takes one of those below a limit. -/
theorem card_unclaimed_succ (hroom : 0 < (unclaimed claimed next stop).card) :
    firstFree claimed claimed.length next < stop ∧
      (unclaimed claimed next stop).card ≤
        (unclaimed claimed (firstFree claimed claimed.length next + 1) stop).card + 1 := by
  obtain ⟨x, hx⟩ := Finset.card_pos.mp hroom
  obtain ⟨⟨hle, hlt⟩, hfree⟩ := mem_unclaimed.mp hx
  refine ⟨(firstFree_le hle hfree).trans_lt hlt, ?_⟩
  have hsub : unclaimed claimed next stop ⊆ insert (firstFree claimed claimed.length next)
      (unclaimed claimed (firstFree claimed claimed.length next + 1) stop) := by
    intro y hy
    obtain ⟨⟨hle, hlt⟩, hfree⟩ := mem_unclaimed.mp hy
    rw [Finset.mem_insert, mem_unclaimed]
    have hfirst := firstFree_le hle hfree
    by_cases heq : y = firstFree claimed claimed.length next
    · exact Or.inl heq
    · exact Or.inr ⟨⟨by omega, hlt⟩, hfree⟩
  exact (Finset.card_le_card hsub).trans (Finset.card_insert_le _ _)

/-- With no fewer free tags than fields that take one, there is a tag for each of them. -/
theorem exists_assign {highest : Int} {ds : List Declared}
    (hroom : ds.countP isUntagged ≤ (unclaimed claimed next (highest + 1)).card) :
    ∃ tags, assign claimed highest next ds = .ok tags := by
  induction ds generalizing next with
  | nil => exact ⟨[], rfl⟩
  | cons d rest ih =>
      rw [List.countP_cons] at hroom
      rw [assign]
      cases hid : isIdentifier d with
      | true =>
          obtain ⟨tags, htags⟩ := ih ((Nat.le_add_right _ _).trans hroom)
          rw [if_pos rfl]
          exact ⟨_, bind_eq_ok_iff.mpr ⟨tags, htags, rfl⟩⟩
      | false =>
          rw [if_neg Bool.false_ne_true]
          cases htag : d.attributes.tag with
          | some tag =>
              obtain ⟨tags, htags⟩ := ih ((Nat.le_add_right _ _).trans hroom)
              exact ⟨_, bind_eq_ok_iff.mpr ⟨tags, htags, rfl⟩⟩
          | none =>
              have huntagged : isUntagged d = true := by simp [isUntagged, hid, htag]
              rw [if_pos huntagged] at hroom
              have hpos : 0 < (unclaimed claimed next (highest + 1)).card := by omega
              obtain ⟨hlt, hleft⟩ := card_unclaimed_succ hpos
              obtain ⟨tags, htags⟩ := ih (Nat.le_of_succ_le_succ (hroom.trans hleft))
              simp only
              rw [if_neg (by omega)]
              exact ⟨_, bind_eq_ok_iff.mpr ⟨tags, htags, rfl⟩⟩

theorem assign_keeps {highest : Int} {ds : List Declared}
    (h : assign claimed highest next ds = .ok tags) :
    ∀ p ∈ ds.zip tags, isIdentifier p.1 = false → ∀ tag, p.1.attributes.tag = some tag →
      p.2 = tag := by
  induction ds generalizing next tags with
  | nil => simp
  | cons d rest ih =>
      obtain ⟨tag, more, rfl, hstep⟩ := assign_cons_eq_ok h
      rw [List.zip_cons_cons]
      rcases hstep with ⟨hi, rfl, hrest⟩ | ⟨hi, ht, hrest⟩ | ⟨hi, ht, rfl, hrest⟩
      · exact List.forall_mem_cons.mpr ⟨fun hid => by simp [hi] at hid, ih hrest⟩
      · refine List.forall_mem_cons.mpr ⟨fun _ t ht' => ?_, ih hrest⟩
        exact Option.some.inj (ht.symm.trans ht')
      · refine List.forall_mem_cons.mpr ⟨fun _ t ht' => ?_, ih hrest⟩
        cases ht.symm.trans ht'

theorem length_explicit_add (ds : List Declared) :
    (explicit ds).length + ds.countP isUntagged = (ds.filter fun d => !isIdentifier d).length := by
  induction ds with
  | nil => rfl
  | cons d rest ih =>
      rw [explicit_cons, List.length_append, List.countP_cons, List.filter_cons]
      cases hid : isIdentifier d with
      | true => simpa [isUntagged, hid] using ih
      | false =>
          cases htag : d.attributes.tag with
          | none =>
              simp only [isUntagged, hid, htag]
              simp
              omega
          | some tag =>
              simp only [isUntagged, hid, htag]
              simp
              omega

/-- Among as many tags as there are fields other than the identifier, claims leave one for each
field that claims none. -/
theorem countP_isUntagged_le (ds : List Declared) :
    ds.countP isUntagged ≤
      (unclaimed (explicit ds).reverse 2
        ((ds.filter fun d => !isIdentifier d).length + 2)).card := by
  let count := (ds.filter fun d => !isIdentifier d).length
  have hsplit : unclaimed (explicit ds).reverse 2 (count + 2) =
      Finset.Ico (2 : Int) (count + 2) \ (explicit ds).toFinset := by
    ext x
    simp [mem_unclaimed]
  have hall : (Finset.Ico (2 : Int) (count + 2)).card = count := by
    rw [Int.card_Ico]
    omega
  have hclaims := List.toFinset_card_le (explicit ds)
  have hleft := Finset.le_card_sdiff (explicit ds).toFinset (Finset.Ico (2 : Int) (count + 2))
  have hsum : (explicit ds).length + ds.countP isUntagged = count := length_explicit_add ds
  rw [hsplit]
  omega

end Room

section Allocate

variable {ds : List Declared} {tags : List Int}

/-- The fields whose claims are all kept are given tags. -/
theorem exists_allocate (h : claims [] ds = .ok (claimsOf ds)) :
    ∃ tags, allocate ds = .ok tags := by
  have hroom := countP_isUntagged_le ds
  rw [← map_fst_claimsOf] at hroom
  have hassign : ∃ tags, assign ((claimsOf ds).map Prod.fst)
      ((ds.filter fun d => !isIdentifier d).length + 1) 2 ds = .ok tags :=
    exists_assign (by rwa [add_assoc])
  obtain ⟨tags, htags⟩ := hassign
  exact ⟨tags, bind_eq_ok_iff.mpr ⟨_, h, htags⟩⟩

/-- Tags are given, or the first field is refused whose tag cannot be kept. -/
theorem allocate_cases (ds : List Declared) :
    (IsAcceptable ds ∧ claims [] ds = .ok (claimsOf ds) ∧ ∃ tags, allocate ds = .ok tags) ∨
      ∃ before d after e, ds = before ++ d :: after ∧ IsAcceptable before ∧ Offends before d e ∧
        allocate ds = .error e := by
  rcases claims_cases ds isAcceptable_nil with ⟨hall, hclaims⟩ | hrefused
  · exact Or.inl ⟨hall, hclaims, exists_allocate hclaims⟩
  · obtain ⟨before, d, after, e, hds, hbefore, hoffends, he⟩ := hrefused
    exact Or.inr ⟨before, d, after, e, hds, hbefore, hoffends, bind_eq_error_iff.mpr (Or.inl he)⟩

theorem assigns_of_allocate (hclaims : claims [] ds = .ok (claimsOf ds))
    (h : allocate ds = .ok tags) : Assigns ds tags := by
  obtain ⟨claimed, hclaimed, h⟩ := bind_eq_ok_iff.mp h
  cases hclaims.symm.trans hclaimed
  rw [map_fst_claimsOf] at h
  obtain ⟨hlen, hfree, hid, _⟩ := assign_eq_ok h
  have hroom := countP_isUntagged_le ds
  rw [← length_freeTags hlen] at hroom
  have hclaim (x : Int) : x ∈ (explicit ds).reverse ↔ x ∈ explicit ds := List.mem_reverse
  refine ⟨hlen, hid, assign_keeps h, hfree.pairwise_lt, fun tag htag => ?_,
    fun tag htag x hx hlt => ?_, fun tag htag => ?_⟩
  · exact ⟨hfree.le tag htag, fun hmem => hfree.notMem tag htag ((hclaim tag).mpr hmem)⟩
  · exact (hfree.smallest htag hx hlt).imp_left (hclaim x).mp
  · have := hfree.lt_of_length_le hroom tag htag
    omega

/-- Tags are given exactly if the explicit ones can be kept. They are then kept, the identifier has
its own, and the other fields have the smallest that are not claimed, in declaration order.
Otherwise the first field whose tag cannot be kept is refused; it is never for want of a tag. -/
theorem allocate_iff_isAcceptable (ds : List Declared) :
    ((∃ tags, allocate ds = .ok tags) ↔ IsAcceptable ds) ∧
      (∀ tags, allocate ds = .ok tags → Assigns ds tags) ∧
      (∀ e, allocate ds = .error e → ∃ before d after, ds = before ++ d :: after ∧
        IsAcceptable before ∧ ¬ IsAcceptable (before ++ [d]) ∧ Offends before d e) ∧
      ∀ place, allocate ds ≠ .error (.malformed place .noTagLeft) := by
  rcases allocate_cases ds with ⟨hall, hclaims, hok⟩ | hrefused
  · have herror (e : SchemaError) : allocate ds ≠ .error e := by
      obtain ⟨tags, htags⟩ := hok
      rw [htags]
      exact fun h => by cases h
    exact ⟨iff_of_true hok hall, fun tags htags => assigns_of_allocate hclaims htags,
      fun e he => absurd he (herror e), fun place => herror _⟩
  · obtain ⟨before, d, after, e, rfl, hbefore, hoffends, he⟩ := hrefused
    have hrefuses : ¬ IsAcceptable (before ++ [d]) := fun h =>
      hoffends.not_fits (isAcceptable_concat.mp h).2
    refine ⟨iff_of_false ?_ ?_, fun tags htags => ?_, fun e' he' => ?_, fun place hplace => ?_⟩
    · rintro ⟨tags, htags⟩
      cases he.symm.trans htags
    · intro h
      rw [List.append_cons] at h
      exact hrefuses h.left
    · cases he.symm.trans htags
    · cases he.symm.trans he'
      exact ⟨before, d, after, rfl, hbefore, hrefuses, hoffends⟩
    · cases he.symm.trans hplace
      cases hoffends

/-- A field with a name and perhaps a tag. -/
def namedField (name : Text) (tag : Option Int) : Declared :=
  ⟨⟨name, .single⟩, { tag := tag }, { member := name }⟩

/-- An identifier, two fields that claim tags, and three that take the first tags left. -/
def mixedFields : List Declared :=
  [namedField "a" none, namedField "b" (some 3), namedField "id" (some 1000), namedField "c" none,
    namedField "d" (some 999), namedField "e" none]

/-- The third field claims the tag of the second; the fourth claims the reserved one. -/
def clashingFields : List Declared :=
  [namedField "a" none, namedField "b" (some 3), namedField "c" (some 3), namedField "d" (some 1)]

theorem allocate_iff_isAcceptable_mixed :
    (allocate mixedFields = .ok [2, 3, 1000, 4, 999, 5] ∧ IsAcceptable mixedFields ∧
      Assigns mixedFields [2, 3, 1000, 4, 999, 5]) ∧
    allocate clashingFields = .error (.tagConflict { member := "c" } 3 ["b", "c"] []) ∧
      ∃ before d after, clashingFields = before ++ d :: after ∧ IsAcceptable before ∧
        ¬ IsAcceptable (before ++ [d]) ∧
        Offends before d (.tagConflict { member := "c" } 3 ["b", "c"] []) := by
  have hmixed : allocate mixedFields = .ok [2, 3, 1000, 4, 999, 5] := rfl
  have hclashing : allocate clashingFields =
      .error (.tagConflict { member := "c" } 3 ["b", "c"] []) := rfl
  obtain ⟨hiff, hassigns, _⟩ := allocate_iff_isAcceptable mixedFields
  obtain ⟨_, _, hrefused, _⟩ := allocate_iff_isAcceptable clashingFields
  exact ⟨⟨hmixed, hiff.mp ⟨_, hmixed⟩, hassigns _ hmixed⟩, hclashing, hrefused _ hclashing⟩

end Allocate

end WireTag

end RecordSchema
