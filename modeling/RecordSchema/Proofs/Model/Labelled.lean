import RecordSchema.Proofs.Model.Listing

/-!
# Labelled values

The values of an enum or a bitmask stand for the pairs of its definition, in document order. A value
has the label as it is written, the symbol for it, and the number that the pair declares: a scalar
declares itself, and a mapping the last number that it gives. The number has 64 bits; those of a
bitmask are bits of its storage.
-/

namespace RecordSchema

open Text Yaml

namespace Yaml.Decode

variable {α β : Type} {anchors : Anchors} {s s' : Progress}

theorem bind_apply_eq_ok {x : Decode α} {f : α → Decode β} {b : β}
    (h : (x >>= f) anchors s = .ok (b, s')) :
    ∃ a s₁, x anchors s = .ok (a, s₁) ∧ f a anchors s₁ = .ok (b, s') := by
  obtain ⟨⟨a, s₁⟩, hx, hf⟩ := bind_eq_ok_iff.mp h
  exact ⟨a, s₁, hx, hf⟩

/-- What is read from a scalar fits the type that it is read as. -/
theorem exists_ofScalar_of_single {r : Reading α} {line : Nat} {tag value : Text}
    {style : ScalarStyle} {a : α}
    (h : single r (.scalar line tag style value) anchors s = .ok (some a, s')) :
    ∃ v, r.ofScalar value v = some a := by
  obtain ⟨_, s₁, _, h⟩ := bind_apply_eq_ok h
  obtain ⟨v, s₂, _, h⟩ := bind_apply_eq_ok h
  simp only at h
  split at h
  · cases h
  · cases hof : r.ofScalar value v with
    | some a' =>
        rw [hof] at h
        cases h
        exact ⟨v, hof⟩
    | none =>
        rw [hof] at h
        obtain ⟨_, s₃, _, h⟩ := bind_apply_eq_ok h
        cases h

theorem Reading.fitsInt64_of_wordOf? {d : Double} {i : Int} (h : wordOf? d = some i) :
    Number.fitsInt64 i = true := by
  unfold wordOf? at h
  simp only at h
  split at h
  · cases h
  · split at h
    · cases h
      decide
    · split at h
      · next hfits =>
          cases h
          exact hfits
      · cases h
        decide

theorem Reading.fitsInt64_of_word {type source : Text} {v : Value} {i : Int}
    (h : (word type).ofScalar source v = some i) : Number.fitsInt64 i = true := by
  unfold word at h
  simp only at h
  split at h
  · split at h
    · next hfits =>
        cases h
        exact hfits
    · cases h
  · exact fitsInt64_of_wordOf? h
  · cases h

end Yaml.Decode

namespace LabelledValue

variable {valueKeys : List Text}

/-- The number that a node declares, where a mapping gives it under some keys. -/
def number? (valueKeys : List Text) (t : Tree) : Option Int :=
  match t.node with
  | .scalar _ _ _ _ => (integer t).toOption
  | .mapping _ _ _ =>
    ((t.pairs?.getD []).reverse.find? fun p => valueKeys.contains p.1.node.value).bind fun p =>
      (integer p.2).toOption
  | _ => none

theorem number?_of_scalar {t : Tree} {line : Nat} {tag value : Text} {style : ScalarStyle}
    (h : t.node = .scalar line tag style value) : number? valueKeys t = (integer t).toOption := by
  rw [number?, h]

theorem number?_of_mapping {t : Tree} {line : Nat} {tag : Text} {pairs : List (Node × Node)}
    (h : t.node = .mapping line tag pairs) :
    number? valueKeys t =
      ((t.pairs?.getD []).reverse.find? fun p => valueKeys.contains p.1.node.value).bind fun p =>
        (integer p.2).toOption := by
  rw [number?, h]

theorem fitsInt64_of_integer {t : Tree} {i : Int} (h : integer t = .ok i) :
    Number.fitsInt64 i = true := by
  unfold integer at h
  split at h
  · next hnode =>
      split at h
      · split at h
        · next n hrun =>
            cases h
            unfold Decode.run at hrun
            rw [hnode] at hrun
            split at hrun
            · cases hrun
            · next a s hsingle =>
                split at hrun
                · cases hrun
                  cases n with
                  | none => decide
                  | some i =>
                      obtain ⟨_, hof⟩ := Decode.exists_ofScalar_of_single hsingle
                      exact Decode.Reading.fitsInt64_of_word hof
                · cases hrun
        · cases h
      · cases h
  · cases h

theorem fitsInt64_of_number? {t : Tree} {i : Int} (h : number? valueKeys t = some i) :
    Number.fitsInt64 i = true := by
  unfold number? at h
  split at h
  · exact fitsInt64_of_integer (eq_ok_of_toOption_eq_some h)
  · obtain ⟨p, _, h⟩ := Option.bind_eq_some_iff.mp h
    exact fitsInt64_of_integer (eq_ok_of_toOption_eq_some h)
  · cases h

/-- Attributes keep the label and the symbol, and the last number counts. -/
theorem attributes_eq_ok (hkeys : ("description" : Text) ∉ valueKeys) {pairs : List (Tree × Tree)}
    {found found' : Bool} {v v' : LabelledValue}
    (h : attributes valueKeys pairs found v = .ok (found', v')) :
    v'.label = v.label ∧ v'.symbol = v.symbol ∧
      match pairs.reverse.find? fun p => valueKeys.contains p.1.node.value with
      | some p => integer p.2 = .ok v'.value
      | none => found' = found ∧ v'.value = v.value := by
  induction pairs generalizing found v with
  | nil =>
      cases h
      exact ⟨rfl, rfl, rfl, rfl⟩
  | cons pair rest ih =>
      obtain ⟨k, t⟩ := pair
      rw [List.reverse_cons, List.find?_append]
      simp only [attributes] at h
      split at h
      · next hkey =>
          have hnot : valueKeys.contains k.node.value = false := by
            rw [hkey]
            simpa using hkeys
          split at h
          · obtain ⟨hlabel, hsymbol, hnumber⟩ := ih h
            refine ⟨hlabel, hsymbol, ?_⟩
            rw [List.find?_cons, hnot, List.find?_nil, Option.or_none]
            exact hnumber
          · cases h
      · split at h
        · next hkey =>
            obtain ⟨i, hi, h⟩ := bind_eq_ok_iff.mp h
            obtain ⟨hlabel, hsymbol, hnumber⟩ := ih h
            refine ⟨hlabel, hsymbol, ?_⟩
            rw [List.find?_cons, hkey]
            split at hnumber
            · next hlast =>
                rw [hlast]
                exact hnumber
            · next hlast =>
                rw [hlast, Option.none_or, hnumber.2]
                exact hi
        · cases h

theorem read_eq_ok (hkeys : ("description" : Text) ∉ valueKeys) {t : Tree} {v v' : LabelledValue}
    (h : read valueKeys t v = .ok v') :
    v'.label = v.label ∧ v'.symbol = v.symbol ∧ number? valueKeys t = some v'.value := by
  unfold read at h
  simp only at h
  split at h
  · next hnode =>
      obtain ⟨i, hi, h⟩ := bind_eq_ok_iff.mp h
      cases h
      refine ⟨rfl, rfl, ?_⟩
      rw [number?_of_scalar hnode]
      exact congrArg Except.toOption hi
  · next hnode =>
      obtain ⟨⟨found, v₁⟩, hv, h⟩ := bind_eq_ok_iff.mp h
      obtain ⟨hlabel, hsymbol, hnumber⟩ := attributes_eq_ok hkeys hv
      split at h
      · next hfound =>
          cases h
          refine ⟨hlabel, hsymbol, ?_⟩
          split at hnumber
          · next p hlast =>
              rw [number?_of_mapping hnode, hlast, Option.bind_some]
              exact congrArg Except.toOption hnumber
          · exact absurd (hnumber.1.symm.trans hfound) Bool.false_ne_true
      · cases h
  · cases h

/-- Whether a value stands for a pair of a definition. -/
structure IsOf (valueKeys : List Text) (pair : Tree × Tree) (v : LabelledValue) : Prop where
  label_eq : v.label = pair.1.node.value
  symbol_eq : v.symbol = Naming.symbol v.label
  number?_eq : number? valueKeys pair.2 = some v.value

theorem filterMap_number? {pairs : List (Tree × Tree)} {values : List LabelledValue}
    (h : List.Forall₂ (IsOf valueKeys) pairs values) :
    (pairs.filterMap fun pair => number? valueKeys pair.2) = values.map LabelledValue.value := by
  induction h with
  | nil => rfl
  | cons hv _ ih => rw [List.filterMap_cons, hv.number?_eq, ih, List.map_cons]

theorem forall₂_of_readAll (hkeys : ("description" : Text) ∉ valueKeys) {d : Definition}
    {values : List LabelledValue} (h : readAll d valueKeys = .ok values) :
    ∃ pairs, d.body.pairs? = some pairs ∧ List.Forall₂ (IsOf valueKeys) pairs values := by
  unfold readAll at h
  split at h
  · cases h
  · next pairs hpairs =>
      refine ⟨pairs, hpairs, (mapM_eq_ok_iff.mp h).imp fun pair v hv => ?_⟩
      simp only at hv
      split at hv
      · next v' hread =>
          cases hv
          obtain ⟨hlabel, hsymbol, hnumber⟩ := read_eq_ok hkeys hread
          exact ⟨hlabel, hsymbol.trans (congrArg Naming.symbol hlabel.symm), hnumber⟩
      · cases hv

end LabelledValue

theorem Enumeration.forall₂_of_resolve {d : Definition} {e : Enumeration} (h : resolve d = .ok e) :
    ∃ pairs, d.body.pairs? = some pairs ∧
      List.Forall₂ (LabelledValue.IsOf ["value"]) pairs e.values := by
  obtain ⟨values, hvalues, h⟩ := bind_eq_ok_iff.mp h
  cases h
  exact LabelledValue.forall₂_of_readAll (by decide) hvalues

theorem Bitmask.forall₂_of_resolve {d : Definition} {b : Bitmask} (h : resolve d = .ok b) :
    ∃ pairs, d.body.pairs? = some pairs ∧
      List.Forall₂ (LabelledValue.IsOf ["bit", "value"]) pairs b.values := by
  obtain ⟨values, hvalues, h⟩ := bind_eq_ok_iff.mp h
  obtain ⟨highest, _, h⟩ := bind_eq_ok_iff.mp h
  cases h
  exact LabelledValue.forall₂_of_readAll (by decide) hvalues

namespace Bitmask

/-- Bits are in range, and none is above the answer. -/
theorem le_of_checkBits {place : Location} {values : List LabelledValue}
    {seen : List (Int × Text)} {highest result : Int}
    (h : checkBits place values seen highest = .ok result) :
    highest ≤ result ∧ ∀ v ∈ values, 0 ≤ v.value ∧ v.value ≤ highestBit ∧ v.value ≤ result := by
  induction values generalizing seen highest with
  | nil =>
      cases h
      exact ⟨le_refl _, List.forall_mem_nil _⟩
  | cons v rest ih =>
      simp only [checkBits] at h
      split at h
      · cases h
      · next hrange =>
          split at h
          · cases h
          · obtain ⟨hmax, hrest⟩ := ih h
            obtain ⟨hnonneg, hle⟩ := not_or.mp hrange
            refine ⟨(le_max_left _ _).trans hmax, List.forall_mem_cons.mpr ⟨?_, hrest⟩⟩
            exact ⟨not_lt.mp hnonneg, not_lt.mp hle, (le_max_right _ _).trans hmax⟩

/-- The bits of a bitmask lie in its storage. -/
theorem lt_of_resolve {d : Definition} {b : Bitmask} (h : resolve d = .ok b) :
    ∀ v ∈ b.values, 0 ≤ v.value ∧ v.value < 8 * b.storageSize := by
  obtain ⟨values, _, h⟩ := bind_eq_ok_iff.mp h
  obtain ⟨highest, hbits, h⟩ := bind_eq_ok_iff.mp h
  cases h
  intro v hv
  obtain ⟨hnonneg, hrange, hle⟩ := (le_of_checkBits hbits).2 v hv
  refine ⟨hnonneg, ?_⟩
  rw [highestBit] at hrange
  simp only [bitmaskSize]
  split_ifs <;> omega

end Bitmask

namespace Model

variable {p : Program} {m : Model}

theorem mem_allEnums (h : resolve p = .ok m) {e : Enumeration} :
    e ∈ m.allEnums ↔
      ∃ n d, (n, d) ∈ p.steps ∧ d.keyword = .enum ∧ Enumeration.resolve d = .ok e := by
  rw [allEnums_eq h, List.mem_filterMap]
  simp only [Prod.exists, enumOf?_eq_some_iff]

theorem mem_allBitmasks (h : resolve p = .ok m) {b : Bitmask} :
    b ∈ m.allBitmasks ↔
      ∃ n d, (n, d) ∈ p.steps ∧ d.keyword = .bitmask ∧ Bitmask.resolve d = .ok b := by
  rw [allBitmasks_eq h, List.mem_filterMap]
  simp only [Prod.exists, bitmaskOf?_eq_some_iff]

end Model

end RecordSchema
