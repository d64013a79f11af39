import RecordSchema.Proofs.Descriptor.Exact
import RecordSchema.Proofs.Descriptor.Order
import RecordSchema.Proofs.Model.Field
import RecordSchema.Store.Library

/-!
# Well-formed storage

The parts of a struct are the slots of its header and of its fields, the elements of the fields, and
the parts of the structs that are elements. In every layout that is emitted the slots follow each
other inside the struct, fields by ascending tag, and every part stands at a multiple of its natural
alignment.
-/

namespace RecordSchema.Layout

open Text

/-- A run of bytes in a struct, with its natural alignment. -/
structure Slot where
  start : Int
  size : Int
  align : Int

/-- Whether a slot ends before another one starts. -/
def Slot.Before (a b : Slot) : Prop := a.start + a.size ≤ b.start

/-- The natural alignment of the elements of a field: that of the built-in type, the whole size of
an enum or a bitmask, and the alignment of the struct for an object. -/
def naturalAlign (m : Model) (laid : List (Object × Layout)) (f : Field) : Int :=
  match f.category with
  | .string => 1
  | .bytes => countSize
  | .enum => enumSize
  | .bitmask =>
    match m.bitmask? f.typeKey with
    | some b => b.storageSize
    | none => 0
  | .object =>
    match laid.find? fun x => x.1.key == f.typeKey with
    | some x => x.2.align.toInt
    | none => 0
  | _ =>
    match Atomic.ofText? f.typeName with
    | some a => a.align
    | none => 0

/-- The type pointer, the offset to the parent, the child index, the identifier and the presence
mask. -/
def headerSlots (pointerSize : Nat) (h : Header) : List Slot :=
  [⟨h.typeOffset.toInt, pointerSize, pointerSize⟩, ⟨h.parentOffset.toInt, 2, 2⟩,
    ⟨h.childIndexOffset.toInt, 1, 1⟩, ⟨h.identifierOffset.toInt, 8, 8⟩,
    ⟨h.maskOffset.toInt, h.maskSize.toInt, 1⟩]

/-- The elements of a field together. -/
def dataSlot (m : Model) (laid : List (Object × Layout)) (l : Layout) (f : Field) : Slot :=
  ⟨(l.member f.name).offset.toInt, (l.member f.name).elementSize.toInt * max 1 f.bound,
    naturalAlign m laid f⟩

/-- The counter of a repeated field and its elements. -/
def fieldSlots (m : Model) (laid : List (Object × Layout)) (l : Layout) (f : Field) : List Slot :=
  (if f.isRepeated then [⟨(l.member f.name).countOffset.toInt, 2, 2⟩] else []) ++
    [dataSlot m laid l f]

/-- The slots of an object. -/
def slots (m : Model) (pointerSize : Nat) (laid : List (Object × Layout)) (o : Object)
    (l : Layout) :
    List Slot :=
  headerSlots pointerSize l.header ++ o.ordered.flatMap (fieldSlots m laid l)

/-- Where an element of a field starts. -/
def elementStart (l : Layout) (f : Field) (i : Nat) : Int :=
  (l.member f.name).offset.toInt + i * (l.member f.name).elementSize.toInt

/-- What a struct consists of, however deep: where it starts and its natural alignment. -/
inductive Part (m : Model) (pointerSize : Nat) (laid : List (Object × Layout)) :
    Object → Layout → (start align : Int) → Prop where
  | slot {o : Object} {l : Layout} {s : Slot} (hs : s ∈ slots m pointerSize laid o l) :
      Part m pointerSize laid o l s.start s.align
  | element {o : Object} {l : Layout} {f : Field} {i : Nat} (hf : f ∈ o.ordered)
      (hi : i < max 1 f.bound) :
      Part m pointerSize laid o l (elementStart l f i) (naturalAlign m laid f)
  | nested {o : Object} {l : Layout} {f : Field} {i : Nat} {x : Object × Layout} {start align : Int}
      (hf : f ∈ o.ordered) (hc : f.category = .object) (hi : i < max 1 f.bound) (hx : x ∈ laid)
      (hkey : x.1.key = f.typeKey) (h : Part m pointerSize laid x.1 x.2 start align) :
      Part m pointerSize laid o l (elementStart l f i + start) align

/-- Whether the layout of an object is well formed, given the layouts of all objects. -/
structure WellFormed (m : Model) (pointerSize : Nat) (laid : List (Object × Layout)) (o : Object)
    (l : Layout) : Prop where
  apart : (slots m pointerSize laid o l).Pairwise Slot.Before
  inside : ∀ s ∈ slots m pointerSize laid o l,
    0 ≤ s.start ∧ 0 < s.size ∧ s.start + s.size ≤ l.size.toInt
  ascending : ∀ f ∈ o.ordered, ∀ g ∈ o.ordered, f.tag < g.tag →
    (dataSlot m laid l f).Before (dataSlot m laid l g)
  /-- The identifier is the one of the header. -/
  identifier : (l.member o.identifier.name).offset = l.header.identifierOffset ∧
    (l.member o.identifier.name).elementSize = 8
  /-- The elements of a field that holds an object are structs of that object. -/
  nested : ∀ f ∈ o.ordered, f.category = .object →
    ∃ x ∈ laid, x.1.key = f.typeKey ∧ (l.member f.name).elementSize = x.2.size
  aligned : ∀ start align, Part m pointerSize laid o l start align →
    align ∣ start ∧ align ∣ l.align.toInt
  mask : 2 * (o.fields.length : Int) ≤ 8 * l.header.maskSize.toInt
  size_dvd : l.align.toInt ∣ l.size.toInt

/-- The slots of the exact header. -/
def exactHeader (pointerSize fields : Nat) : List Slot :=
  [⟨0, pointerSize, pointerSize⟩, ⟨pointerSize, 2, 2⟩, ⟨pointerSize + 2, 1, 1⟩,
    ⟨Exact.identifierOffset pointerSize, 8, 8⟩,
    ⟨Exact.maskOffset pointerSize, Exact.maskSize fields, 1⟩]

/-- The slots of a field that is placed exactly. -/
def exactSlots (element : Field → Nat × Nat) (x : Field × Exact.Member) : List Slot :=
  (if x.1.isRepeated then [⟨x.2.countOffset, 2, 2⟩] else []) ++
    [⟨x.2.offset, x.2.size, (element x.1).2⟩]

/-- Whether a slot lies between two places, at a multiple of its alignment. -/
structure Slot.Fits (start stop : Int) (s : Slot) : Prop where
  le_start : start ≤ s.start
  size_pos : 0 < s.size
  le_stop : s.start + s.size ≤ stop
  align_dvd : s.align ∣ 8
  dvd_start : s.align ∣ s.start

theorem exactHeader_fits {pointerSize : Nat} (hpointer : pointerSize = 4 ∨ pointerSize = 8)
    (fields : Nat) (hpos : 0 < fields) :
    (exactHeader pointerSize fields).Pairwise Slot.Before ∧
      ∀ s ∈ exactHeader pointerSize fields,
        s.Fits 0 (Exact.maskOffset pointerSize + Exact.maskSize fields : Nat) := by
  have hmask : 0 < Exact.maskSize fields := by
    unfold Exact.maskSize
    omega
  have hid : Exact.identifierOffset pointerSize = 2 * pointerSize := by
    rcases hpointer with rfl | rfl <;> decide
  have hoffset : Exact.maskOffset pointerSize = 2 * pointerSize + 8 := by
    rcases hpointer with rfl | rfl <;> decide
  rw [exactHeader, hid, hoffset]
  constructor
  · simp [Slot.Before]
    omega
  · intro s hs
    simp only [List.mem_cons, List.not_mem_nil, or_false] at hs
    rcases hpointer with rfl | rfl <;> rcases hs with rfl | rfl | rfl | rfl | rfl <;>
      constructor <;> simp only <;> omega

section Placed

variable {element : Field → Nat × Nat} {fs : List Field} {stop : Nat}

theorem exactSlots_fits {x : Field × Exact.Member} (hx : x ∈ Exact.placed element fs stop)
    (hsound : Exact.IsElement (element x.1)) :
    (exactSlots element x).Pairwise Slot.Before ∧
      ∀ s ∈ exactSlots element x, s.Fits (x.2.start x.1) x.2.stop := by
  have hplaced := Exact.isPlaced_of_mem hx
  have hstart := hplaced.start_le
  have hpos : 0 < (element x.1).2 := Nat.pos_of_dvd_of_pos hsound.align_dvd (by omega)
  have hsize : 0 < x.2.size := by
    rw [hplaced.size_eq]
    exact Nat.mul_pos hsound.size_pos (by omega)
  have hdata : Slot.Fits (x.2.start x.1) x.2.stop ⟨x.2.offset, x.2.size, (element x.1).2⟩ := by
    refine ⟨Int.ofNat_le.mpr hstart, Int.ofNat_lt.mpr hsize, le_rfl, ?_, ?_⟩
    · exact Int.natCast_dvd_natCast.mpr hsound.align_dvd
    · exact Int.natCast_dvd_natCast.mpr (hplaced.dvd_offset hpos)
  unfold exactSlots
  by_cases hr : x.1.isRepeated = true
  · obtain ⟨heq, hdvd, hle⟩ := hplaced.count hr
    have hcount : Slot.Fits (x.2.start x.1) x.2.stop ⟨x.2.countOffset, 2, 2⟩ := by
      simp only [countSize] at hdvd hle
      constructor <;> simp only [Exact.Member.stop] <;> omega
    rw [if_pos hr]
    constructor
    · simp only [countSize] at hle
      simp [Slot.Before]
      omega
    · exact List.forall_mem_cons.mpr ⟨hcount, List.forall_mem_singleton.mpr hdata⟩
  · rw [if_neg hr]
    exact ⟨List.pairwise_singleton _ _, List.forall_mem_singleton.mpr hdata⟩

/-- The slots of fields that are placed one after the other follow each other. -/
theorem exactSlots_placed (hsound : ∀ f ∈ fs, Exact.IsElement (element f)) (stop : Nat) :
    ((Exact.placed element fs stop).flatMap (exactSlots element)).Pairwise Slot.Before ∧
      ∀ s ∈ (Exact.placed element fs stop).flatMap (exactSlots element),
        s.Fits stop (Exact.stopOf element fs stop) := by
  have hall : ∀ x ∈ Exact.placed element fs stop, Exact.IsElement (element x.1) := by
    intro x hx
    refine hsound x.1 ?_
    rw [← Exact.map_fst_placed element fs stop]
    exact List.mem_map_of_mem hx
  constructor
  · refine List.pairwise_flatMap.mpr ⟨?_, ?_⟩
    · intro x hx
      exact (exactSlots_fits hx (hall x hx)).1
    · refine (Exact.placed_pairwise element fs stop).imp_of_mem ?_
      intro x y hx hy hxy s hs t ht
      have hstop := ((exactSlots_fits hx (hall x hx)).2 s hs).le_stop
      have hstart := ((exactSlots_fits hy (hall y hy)).2 t ht).le_start
      unfold Slot.Before
      omega
  · intro s hs
    obtain ⟨x, hx, hs⟩ := List.mem_flatMap.mp hs
    have hfits := (exactSlots_fits hx (hall x hx)).2 s hs
    obtain ⟨before, hbefore, hplace, hstop⟩ := Exact.exists_place_of_mem hx
    have hfirst := Exact.le_start_place x.1 (element x.1).1 (element x.1).2 before
    rw [← hplace] at hfirst
    refine ⟨?_, hfits.size_pos, ?_, hfits.align_dvd, hfits.dvd_start⟩
    · have := hfits.le_start
      omega
    · have := hfits.le_stop
      omega

end Placed

theorem toInt_word {n : Nat} (h : n < 2 ^ 63) : (word n).toInt = n := Int64.toInt_ofNat_of_lt h

/-- Whether the layout of an object is the exact one, where `element` gives the sizes and the
natural alignments of its elements. -/
structure IsExact (m : Model) (pointerSize : Nat) (laid : List (Object × Layout)) (o : Object)
    (l : Layout) (element : Field → Nat × Nat) : Prop where
  pointer : pointerSize = 4 ∨ pointerSize = 8
  layout_eq : l = (Exact.ofElements pointerSize element o).toWords pointerSize o
  size_lt : (Exact.ofElements pointerSize element o).size < 2 ^ 63
  nodup : (o.fields.map Field.name).Nodup
  sound : ∀ f ∈ o.ordered, Exact.IsElement (element f)
  align_eq : ∀ f ∈ o.ordered, naturalAlign m laid f = (element f).2

namespace IsExact

variable {m : Model} {pointerSize : Nat} {laid : List (Object × Layout)} {o : Object} {l : Layout}
variable {element : Field → Nat × Nat} (h : IsExact m pointerSize laid o l element)

include h

theorem size_toInt : l.size.toInt = (Exact.ofElements pointerSize element o).size := by
  rw [h.layout_eq]
  exact toInt_word h.size_lt

theorem member_eq {x : Field × Exact.Member}
    (hx : x ∈ (Exact.ofElements pointerSize element o).members) :
    l.member x.1.name = x.2.toWords := by
  rw [h.layout_eq]
  exact Exact.member_toWords h.nodup (List.mem_cons_of_mem _ hx)

theorem stop_lt {x : Field × Exact.Member}
    (hx : x ∈ (Exact.ofElements pointerSize element o).members) : x.2.stop < 2 ^ 63 := by
  obtain ⟨_, _, _, hstop⟩ := Exact.exists_place_of_mem hx
  exact (hstop.trans (Exact.le_alignUp _ _)).trans_lt h.size_lt

theorem dataSlot_eq {x : Field × Exact.Member}
    (hx : x ∈ (Exact.ofElements pointerSize element o).members) (hf : x.1 ∈ o.ordered) :
    dataSlot m laid l x.1 = ⟨x.2.offset, x.2.size, (element x.1).2⟩ := by
  have hlt := h.stop_lt hx
  have hplaced := Exact.isPlaced_of_mem hx
  have hsize : x.2.elementSize ≤ x.2.size := by
    rw [hplaced.elementSize_eq, hplaced.size_eq]
    exact Nat.le_mul_of_pos_right _ (by omega)
  unfold Exact.Member.stop at hlt
  unfold dataSlot
  rw [h.member_eq hx, h.align_eq x.1 hf]
  simp only [Exact.Member.toWords]
  rw [toInt_word (by omega), toInt_word (by omega), hplaced.size_eq, hplaced.elementSize_eq]
  push_cast
  rfl

theorem fieldSlots_eq {x : Field × Exact.Member}
    (hx : x ∈ (Exact.ofElements pointerSize element o).members) (hf : x.1 ∈ o.ordered) :
    fieldSlots m laid l x.1 = exactSlots element x := by
  unfold fieldSlots exactSlots
  rw [h.dataSlot_eq hx hf]
  by_cases hr : x.1.isRepeated = true
  · have hlt := h.stop_lt hx
    obtain ⟨_, _, hle⟩ := (Exact.isPlaced_of_mem hx).count hr
    unfold Exact.Member.stop at hlt
    rw [if_pos hr, if_pos hr, h.member_eq hx]
    simp only [Exact.Member.toWords]
    rw [toInt_word (by omega)]
  · rw [if_neg hr, if_neg hr]

omit h in
theorem mem_ordered {x : Field × Exact.Member}
    (hx : x ∈ (Exact.ofElements pointerSize element o).members) : x.1 ∈ o.ordered := by
  rw [← Exact.map_fst_placed element o.ordered
    (Exact.maskOffset pointerSize + Exact.maskSize o.fields.length)]
  exact List.mem_map_of_mem hx

omit h in
theorem exists_member (pointerSize : Nat) (element : Field → Nat × Nat) {f : Field}
    (hf : f ∈ o.ordered) :
    ∃ x ∈ (Exact.ofElements pointerSize element o).members, x.1 = f := by
  rw [← Exact.map_fst_placed element o.ordered
    (Exact.maskOffset pointerSize + Exact.maskSize o.fields.length)] at hf
  exact List.mem_map.mp hf

theorem start_lt : Exact.maskOffset pointerSize + Exact.maskSize o.fields.length < 2 ^ 63 :=
  ((Exact.le_stopOf o.ordered _).trans (Exact.le_alignUp _ _)).trans_lt h.size_lt

theorem headerSlots_eq : headerSlots pointerSize l.header =
    exactHeader pointerSize o.fields.length := by
  have hlt := h.start_lt
  have hid : Exact.identifierOffset pointerSize ≤ Exact.maskOffset pointerSize :=
    Nat.le_add_right _ _
  have hpointer : pointerSize ≤ 8 := by
    rcases h.pointer with hp | hp <;> omega
  rw [h.layout_eq]
  simp only [headerSlots, exactHeader, Exact.Frame.toWords, Exact.header, countSize]
  rw [toInt_word (show pointerSize < 2 ^ 63 by omega),
    toInt_word (show pointerSize + 2 < 2 ^ 63 by omega),
    toInt_word (show Exact.identifierOffset pointerSize < 2 ^ 63 by omega),
    toInt_word (show Exact.maskOffset pointerSize < 2 ^ 63 by omega),
    toInt_word (show Exact.maskSize o.fields.length < 2 ^ 63 by omega)]
  rfl

theorem slots_eq : slots m pointerSize laid o l =
    exactHeader pointerSize o.fields.length ++
      (Exact.ofElements pointerSize element o).members.flatMap (exactSlots element) := by
  have hfields : o.ordered.flatMap (fieldSlots m laid l) =
      (Exact.ofElements pointerSize element o).members.flatMap (exactSlots element) := by
    conv_lhs => rw [← Exact.map_fst_placed element o.ordered
      (Exact.maskOffset pointerSize + Exact.maskSize o.fields.length)]
    rw [List.flatMap_map]
    exact List.flatMap_congr fun x hx => h.fieldSlots_eq hx (mem_ordered hx)
  rw [slots, h.headerSlots_eq, hfields]

/-- The slots follow each other inside the struct. -/
theorem slots_fit : (slots m pointerSize laid o l).Pairwise Slot.Before ∧
    ∀ s ∈ slots m pointerSize laid o l, s.Fits 0 l.size.toInt := by
  obtain ⟨hheader, hinside⟩ := exactHeader_fits h.pointer o.fields.length (Nat.succ_pos _)
  obtain ⟨hfields, hplaced⟩ := exactSlots_placed h.sound
    (Exact.maskOffset pointerSize + Exact.maskSize o.fields.length)
  have hstart : Exact.maskOffset pointerSize + Exact.maskSize o.fields.length ≤
    Exact.stopOf element o.ordered _ := Exact.le_stopOf o.ordered _
  have hstop : Exact.stopOf element o.ordered _ ≤ (Exact.ofElements pointerSize element o).size :=
    Exact.le_alignUp _ _
  rw [h.slots_eq, h.size_toInt]
  constructor
  · refine List.pairwise_append.mpr ⟨hheader, hfields, ?_⟩
    intro s hs t ht
    exact (hinside s hs).le_stop.trans (hplaced t ht).le_start
  · intro s hs
    rcases List.mem_append.mp hs with hs | hs
    · have hfits := hinside s hs
      refine ⟨hfits.le_start, hfits.size_pos, ?_, hfits.align_dvd, hfits.dvd_start⟩
      exact hfits.le_stop.trans (Int.ofNat_le.mpr (hstart.trans hstop))
    · have hfits := hplaced s hs
      refine ⟨?_, hfits.size_pos, ?_, hfits.align_dvd, hfits.dvd_start⟩
      · exact (Int.natCast_nonneg _).trans hfits.le_start
      · exact hfits.le_stop.trans (Int.ofNat_le.mpr hstop)

theorem element_aligned {f : Field} (hf : f ∈ o.ordered) (i : Nat) :
    naturalAlign m laid f ∣ 8 ∧ naturalAlign m laid f ∣ elementStart l f i := by
  obtain ⟨x, hx, rfl⟩ := exists_member pointerSize element hf
  have hsound := h.sound x.1 hf
  have hplaced := Exact.isPlaced_of_mem hx
  have hlt := h.stop_lt hx
  have hsize : x.2.elementSize ≤ x.2.size := by
    rw [hplaced.elementSize_eq, hplaced.size_eq]
    exact Nat.le_mul_of_pos_right _ (by omega)
  unfold Exact.Member.stop at hlt
  have hpos : 0 < (element x.1).2 := Nat.pos_of_dvd_of_pos hsound.align_dvd (by omega)
  rw [h.align_eq x.1 hf]
  refine ⟨Int.natCast_dvd_natCast.mpr hsound.align_dvd, ?_⟩
  unfold elementStart
  rw [h.member_eq hx]
  simp only [Exact.Member.toWords]
  rw [toInt_word (by omega), toInt_word (by omega), hplaced.elementSize_eq]
  refine Int.dvd_add (Int.natCast_dvd_natCast.mpr (hplaced.dvd_offset hpos)) ?_
  exact (Int.natCast_dvd_natCast.mpr hsound.dvd_size).mul_left _

theorem align_toInt : l.align.toInt = 8 := by
  have hpointer : pointerSize ∣ 8 := by
    rcases h.pointer with rfl | rfl <;> decide
  rw [h.layout_eq]
  simp only [Exact.Frame.toWords]
  rw [(Exact.isFrame_ofElements hpointer h.sound).align_eq]
  rfl

theorem eight_dvd_size : 8 ∣ l.size.toInt := by
  have hpointer : pointerSize ∣ 8 := by
    rcases h.pointer with rfl | rfl <;> decide
  rw [h.size_toInt]
  exact Int.natCast_dvd_natCast.mpr (Exact.isFrame_ofElements hpointer h.sound).dvd_size

theorem mask_le : 2 * (o.fields.length : Int) ≤ 8 * l.header.maskSize.toInt := by
  have hlt := h.start_lt
  rw [h.layout_eq]
  simp only [Exact.Frame.toWords, Exact.header]
  rw [toInt_word (by omega)]
  unfold Exact.maskSize
  omega

theorem identifier_eq : (l.member o.identifier.name).offset = l.header.identifierOffset ∧
    (l.member o.identifier.name).elementSize = 8 := by
  rw [h.layout_eq]
  simp only [Layout.member, Exact.Frame.toWords, List.lookup_cons, beq_self_eq_true]
  exact ⟨rfl, rfl⟩

theorem dataSlot_before {f g : Field} (hf : f ∈ o.ordered) (hg : g ∈ o.ordered)
    (hsorted : o.ordered.Pairwise fun f g => f.tag < g.tag) (hlt : f.tag < g.tag) :
    (dataSlot m laid l f).Before (dataSlot m laid l g) := by
  have hplaced := Exact.placed_pairwise element o.ordered
    (Exact.maskOffset pointerSize + Exact.maskSize o.fields.length)
  have htags : (Exact.ofElements pointerSize element o).members.Pairwise
      fun x y => x.1.tag < y.1.tag := by
    rw [← Exact.map_fst_placed element o.ordered
      (Exact.maskOffset pointerSize + Exact.maskSize o.fields.length), List.pairwise_map] at hsorted
    exact hsorted
  have hall : ∀ ⦃x⦄, x ∈ (Exact.ofElements pointerSize element o).members →
      ∀ ⦃y⦄, y ∈ (Exact.ofElements pointerSize element o).members →
      x.1.tag < y.1.tag → x.2.stop ≤ y.2.start y.1 := by
    refine List.Pairwise.forall_of_forall_of_flip ?_ ?_ ?_
    · intro x _ hself
      exact absurd hself (lt_irrefl _)
    · refine hplaced.imp ?_
      intro x y hxy _
      exact hxy
    · refine htags.imp ?_
      intro x y hxy hyx
      exact absurd hyx hxy.asymm
  obtain ⟨x, hx, rfl⟩ := exists_member pointerSize element hf
  obtain ⟨y, hy, rfl⟩ := exists_member pointerSize element hg
  rw [h.dataSlot_eq hx hf, h.dataSlot_eq hy hg]
  have hstop := hall hx hy hlt
  have hstart := (Exact.isPlaced_of_mem hy).start_le
  exact Int.ofNat_le.mpr (hstop.trans hstart)

end IsExact

/-- Parts at any depth are aligned if all layouts are exact and structs are aligned to eight. -/
theorem Part.aligned {m : Model} {pointerSize : Nat} {laid : List (Object × Layout)}
    (hlaid : ∀ x ∈ laid, ∃ element, IsExact m pointerSize laid x.1 x.2 element)
    (hobject : ∀ x ∈ laid, ∀ f ∈ x.1.ordered, f.category = .object → naturalAlign m laid f = 8)
    {o : Object} {l : Layout} {start align : Int} (h : Part m pointerSize laid o l start align)
    (hx : (o, l) ∈ laid) : align ∣ start ∧ align ∣ 8 := by
  induction h with
  | @slot o l s hs =>
      obtain ⟨element, hexact⟩ := hlaid _ hx
      have hfits := hexact.slots_fit.2 s hs
      exact ⟨hfits.dvd_start, hfits.align_dvd⟩
  | @element o l f i hf _ =>
      obtain ⟨element, hexact⟩ := hlaid _ hx
      obtain ⟨height, hstart⟩ := hexact.element_aligned hf i
      exact ⟨hstart, height⟩
  | @nested o l f i x start align hf hc _ hin _ _ ih =>
      obtain ⟨element, hexact⟩ := hlaid _ hx
      obtain ⟨hstart, height⟩ := ih hin
      -- The struct starts at a multiple of eight, and eight is a multiple of the alignment.
      have hstruct := (hexact.element_aligned hf i).2
      rw [hobject _ hx f hf hc] at hstruct
      exact ⟨Int.dvd_add (height.trans hstruct) hstart, height⟩

theorem naturalAlign_flat {m : Model} (laid : List (Object × Layout)) {f : Field}
    (h : Exact.Storable m f) (hc : f.category ≠ .object) :
    naturalAlign m laid f = (Exact.flatElement m f).2 := by
  unfold Exact.Storable at h
  unfold naturalAlign Exact.flatElement
  cases hcat : f.category with
  | string => rfl
  | bytes => rfl
  | enum => rfl
  | bitmask =>
      rw [hcat] at h
      obtain ⟨b, hb, _⟩ := h
      simp only [hb]
  | object => exact absurd hcat hc
  | _ =>
      rw [hcat] at h
      obtain ⟨a, ha⟩ := h
      simp only [Exact.atomicElement, ha]

end RecordSchema.Layout

namespace RecordSchema

open Text

theorem Atomic.category_mem :
    ∀ a ∈ Atomic.all, a.category ∈ [Category.signed, .unsigned, .float, .bool] := by
  decide

/-- The fields of a resolved object can be stored. -/
theorem Model.storable_of_mem {source : Source} {p : Program} {m : Model}
    (hloaded : Loaded source p.namespaces) (h : resolve p = .ok m) {o : Object}
    (ho : o ∈ m.allObjects) {f : Field} (hf : f ∈ o.ordered) : Exact.Storable m f := by
  obtain ⟨n, d, hs, _, ho⟩ := (mem_allObjects h).mp ho
  obtain ⟨_, declared, tag, _, _, hr⟩ := Object.exists_declared_of_mem_ordered ho hf
  obtain ⟨type, hr⟩ := Declared.resolves_of_resolve_eq_ok hr
  unfold Exact.Storable
  rw [hr.category_eq, hr.typeKey_eq, hr.typeName_eq, hr.maxSize_eq]
  rcases TypeReference.resolve_eq_ok hr.type_eq with hbuilt | ⟨target, hnames, hkey⟩
  · rcases hbuilt.kind with ⟨hc, hpos⟩ | hc | ⟨a, ha, hc⟩
    · rw [hc]
      exact hpos
    · rw [hc]
      trivial
    · have hmem := Atomic.category_mem a (List.mem_of_find?_eq_some ha)
      rw [hc] at hmem
      simp only [List.mem_cons, List.not_mem_nil, or_false] at hmem
      rcases hmem with hc | hc | hc | hc <;> rw [hc] <;> exact ⟨a, ha⟩
  · obtain ⟨n', hstep⟩ := Program.exists_step_of_names hloaded (Program.mem_steps.mp hs).1 hnames
    have hcategory := hnames.category_eq
    rw [hkey]
    cases hk : target.keyword with
    | enum =>
        rw [hk] at hcategory
        rw [← Option.some.inj hcategory]
        trivial
    | bitmask =>
        rw [hk] at hcategory
        obtain ⟨b, hfound, hb⟩ := bitmask?_of_step hloaded h hstep hk
        rw [← Option.some.inj hcategory]
        exact ⟨b, hfound, (Bitmask.resolve_eq_ok hb).2⟩
    | object =>
        rw [hk] at hcategory
        obtain ⟨sub, hfound, _⟩ := object?_of_step hloaded h hstep hk
        rw [← Option.some.inj hcategory]
        exact ⟨sub, hfound⟩
    | _ =>
        rw [hk] at hcategory
        cases hcategory

namespace Model

/-- What is known of the objects of a model that is laid out in order. -/
structure Regular (m : Model) (pointerSize : Nat) (sorted : List Object) (rank : Object → Nat) :
    Prop where
  ranked : Layout.Ranked m rank
  rank_lt : ∀ o ∈ m.allObjects, rank o < m.allObjects.length
  pointer : pointerSize = 4 ∨ pointerSize = 8
  storable : ∀ o ∈ m.allObjects, ∀ f ∈ o.ordered, Exact.Storable m f
  nodup_key : (m.allObjects.map Object.key).Nodup
  nodup_name : ∀ o ∈ m.allObjects, (o.fields.map Field.name).Nodup
  perm : sorted.Perm m.allObjects
  laid_eq : Layout.ofObjects m pointerSize sorted = sorted.map fun o =>
    (o, Layout.plain m (Layout.word pointerSize) m.allObjects.length o)
  size_lt : ∀ o ∈ m.allObjects, Exact.sizeOf m pointerSize o < 2 ^ 63

variable {source : Source} {p : Program} {m : Model} {sorted : List Object} {pointerSize : Nat}
variable {rank : Object → Nat}

theorem exists_regular (hloaded : Loaded source p.namespaces) (h : resolve p = .ok m)
    (hsorted : Object.order m.allObjects = .ok sorted)
    (hpointer : pointerSize = 4 ∨ pointerSize = 8)
    (hfits : ∀ o ∈ m.allObjects, Exact.sizeOf m pointerSize o < 2 ^ 63) :
    ∃ rank, Regular m pointerSize sorted rank := by
  have hkeys := nodup_key_allObjects hloaded h
  obtain ⟨rank, hrank, hbound⟩ := exists_rank hloaded h hsorted
  have heffective : Layout.effectivePointerSize pointerSize = Layout.word pointerSize := by
    rcases hpointer with rfl | rfl <;> decide
  refine ⟨rank, hrank, hbound, hpointer, ?_, hkeys, ?_, (Object.order_eq_ok hkeys hsorted).1, ?_,
    hfits⟩
  · intro o ho f hf
    exact storable_of_mem hloaded h ho hf
  · intro o ho
    obtain ⟨_, _, _, _, hr⟩ := (mem_allObjects h).mp ho
    exact Object.nodup_name_fields hr
  · rw [ofObjects_eq_plain hloaded h hsorted, heffective]

namespace Regular

variable (h : Regular m pointerSize sorted rank)

include h

theorem pointer_dvd : pointerSize ∣ 8 := by
  rcases h.pointer with rfl | rfl <;> decide

theorem mem_laid {o : Object} (ho : o ∈ m.allObjects) :
    (o, Layout.plain m (Layout.word pointerSize) m.allObjects.length o) ∈
      Layout.ofObjects m pointerSize sorted := by
  rw [h.laid_eq]
  exact List.mem_map.mpr ⟨o, h.perm.mem_iff.mpr ho, rfl⟩

/-- The layout of an object is found by its key. -/
theorem find?_laid {o : Object} (ho : o ∈ m.allObjects) :
    (Layout.ofObjects m pointerSize sorted).find? (fun x => x.1.key == o.key) =
      some (o, Layout.plain m (Layout.word pointerSize) m.allObjects.length o) := by
  have hnodup : ((Layout.ofObjects m pointerSize sorted).map fun x => x.1.key).Nodup := by
    rw [h.laid_eq, List.map_map]
    exact (h.perm.map Object.key).nodup_iff.mpr h.nodup_key
  exact find?_key_eq_some hnodup (h.mem_laid ho)

theorem plain_eq {o : Object} (ho : o ∈ m.allObjects) :
    Layout.plain m (Layout.word pointerSize) m.allObjects.length o =
      (Exact.frame m pointerSize m.allObjects.length o).toWords pointerSize o :=
  Exact.plain_eq_toWords h.ranked h.pointer_dvd h.storable ho (h.rank_lt o ho) (h.size_lt o ho)

theorem isFrame {o : Object} (ho : o ∈ m.allObjects) {fuel : Nat} (hf : rank o < fuel) :
    Exact.IsFrame (Exact.frame m pointerSize fuel o) :=
  Exact.isFrame_frame h.ranked h.pointer_dvd h.storable ho hf

theorem exists_sub {o : Object} (ho : o ∈ m.allObjects) {f : Field} (hf : f ∈ o.ordered)
    (hc : f.category = .object) :
    ∃ sub ∈ m.allObjects, m.object? f.typeKey = some sub ∧ sub.key = f.typeKey ∧
      rank sub < rank o := by
  have hstorable := h.storable o ho f hf
  simp only [Exact.Storable, hc] at hstorable
  obtain ⟨sub, hsub⟩ := hstorable
  obtain ⟨hin, hkey⟩ := Layout.mem_of_object?_eq_some hsub
  exact ⟨sub, hin, hsub, hkey, h.ranked o ho f hf hc sub hsub⟩

/-- An object that is held by value is aligned to eight. -/
theorem naturalAlign_object {o : Object} (ho : o ∈ m.allObjects) {f : Field} (hf : f ∈ o.ordered)
    (hc : f.category = .object) :
    Layout.naturalAlign m (Layout.ofObjects m pointerSize sorted) f = 8 := by
  obtain ⟨sub, hin, _, hkey, _⟩ := h.exists_sub ho hf hc
  simp only [Layout.naturalAlign, hc]
  rw [← hkey, h.find?_laid hin, h.plain_eq hin]
  simp only [Exact.Frame.toWords, (h.isFrame hin (h.rank_lt sub hin)).align_eq]
  rfl

/-- The layouts of the objects are exact. -/
theorem isExact {o : Object} (ho : o ∈ m.allObjects) {fuel : Nat}
    (hfuel : m.allObjects.length = fuel + 1) :
    Layout.IsExact m pointerSize (Layout.ofObjects m pointerSize sorted) o
      (Layout.plain m (Layout.word pointerSize) m.allObjects.length o)
      (Exact.elementOf m (Exact.frame m pointerSize fuel)) := by
  have hlt : rank o < fuel + 1 := hfuel ▸ h.rank_lt o ho
  have hsize := h.size_lt o ho
  rw [Exact.sizeOf, hfuel] at hsize
  refine ⟨h.pointer, ?_, hsize, h.nodup_name o ho, ?_, ?_⟩
  · rw [h.plain_eq ho, hfuel]
    rfl
  · exact Exact.isElement_frame h.ranked h.pointer_dvd h.storable ho hlt
  · intro f hf
    by_cases hc : f.category = .object
    · obtain ⟨sub, hin, hsub, _, hless⟩ := h.exists_sub ho hf hc
      rw [h.naturalAlign_object ho hf hc, Exact.elementOf_object _ hc hsub,
        (h.isFrame hin (show rank sub < fuel by omega)).align_eq]
      rfl
    · rw [Exact.elementOf_flat _ hc]
      exact Layout.naturalAlign_flat _ (h.storable o ho f hf) hc

/-- The elements of a field that holds an object have the size of that object. -/
theorem elementSize_object {o : Object} (ho : o ∈ m.allObjects) {f : Field} (hf : f ∈ o.ordered)
    (hc : f.category = .object) :
    ∃ x ∈ Layout.ofObjects m pointerSize sorted, x.1.key = f.typeKey ∧
      ((Layout.plain m (Layout.word pointerSize) m.allObjects.length o).member f.name).elementSize =
        x.2.size := by
  obtain ⟨sub, hin, hsub, hkey, _⟩ := h.exists_sub ho hf hc
  exact ⟨_, h.mem_laid hin, hkey,
    Layout.elementSize_plain h.ranked ho (h.rank_lt o ho) (h.nodup_name o ho) hf hc hsub⟩

theorem wellFormed (htags : ∀ o ∈ m.allObjects, o.ordered.Pairwise fun f g => f.tag < g.tag)
    {x : Object × Layout} (hx : x ∈ Layout.ofObjects m pointerSize sorted) :
    Layout.WellFormed m pointerSize (Layout.ofObjects m pointerSize sorted) x.1 x.2 := by
  have hall : ∀ x ∈ Layout.ofObjects m pointerSize sorted, x.1 ∈ m.allObjects ∧
      x.2 = Layout.plain m (Layout.word pointerSize) m.allObjects.length x.1 := by
    intro x hx
    rw [h.laid_eq] at hx
    obtain ⟨o, ho, rfl⟩ := List.mem_map.mp hx
    exact ⟨h.perm.mem_iff.mp ho, rfl⟩
  have hexact : ∀ x ∈ Layout.ofObjects m pointerSize sorted, ∃ element,
      Layout.IsExact m pointerSize (Layout.ofObjects m pointerSize sorted) x.1 x.2 element := by
    intro x hx
    obtain ⟨ho, hl⟩ := hall x hx
    have hbound := h.rank_lt x.1 ho
    rw [hl]
    exact ⟨_, h.isExact ho (show m.allObjects.length = m.allObjects.length - 1 + 1 by omega)⟩
  obtain ⟨ho, hl⟩ := hall x hx
  obtain ⟨element, he⟩ := hexact x hx
  obtain ⟨hapart, hfits⟩ := he.slots_fit
  refine ⟨hapart, ?_, ?_, he.identifier_eq, ?_, ?_, he.mask_le, ?_⟩
  · intro s hs
    exact ⟨(hfits s hs).le_start, (hfits s hs).size_pos, (hfits s hs).le_stop⟩
  · intro f hf g hg hlt
    exact he.dataSlot_before hf hg (htags x.1 ho) hlt
  · intro f hf hc
    rw [hl]
    exact h.elementSize_object ho hf hc
  · intro start align hpart
    rw [he.align_toInt]
    refine hpart.aligned hexact ?_ hx
    intro y hy f hf hc
    exact h.naturalAlign_object (hall y hy).1 hf hc
  · rw [he.align_toInt]
    exact he.eight_dvd_size

end Regular

/-- In a model that is emitted the layout of every object is well formed, as long as the exact
sizes of the structs are words; the descriptors of the bundle are made from these layouts. -/
theorem wellFormed_of_emit {root : Text} (hload : (Program.load source root).1 = .ok p)
    (h : resolve p = .ok m) {options : EmitOptions} {b : Bundle}
    (hemit : Bundle.emit options m = .ok b) (hpointer : pointerSize = 4 ∨ pointerSize = 8)
    (hoptions : options.pointerSize = pointerSize)
    (hfits : ∀ o ∈ m.allObjects, Exact.sizeOf m pointerSize o < 2 ^ 63) :
    ∃ sorted, Object.order m.allObjects = .ok sorted ∧ sorted.Perm m.allObjects ∧
      (Layout.ofObjects m options.pointerSize sorted).map Prod.fst = sorted ∧
      (∀ d ∈ b.objects, ∃ x ∈ Layout.ofObjects m options.pointerSize sorted,
        d = ObjectDescriptor.ofObject m options.naming x.1 x.2) ∧
      ∀ x ∈ Layout.ofObjects m options.pointerSize sorted,
        Layout.WellFormed m pointerSize
          (Layout.ofObjects m options.pointerSize sorted) x.1 x.2 := by
  have hloaded := (Program.loadedFrom_of_load hload).loaded
  obtain ⟨sorted, hsorted, hobjects⟩ := Bundle.objects_of_emit hemit
  obtain ⟨rank, hregular⟩ := exists_regular hloaded h hsorted hpointer hfits
  rw [hoptions] at hobjects ⊢
  refine ⟨sorted, hsorted, hregular.perm, ?_, ?_, ?_⟩
  · rw [hregular.laid_eq, List.map_map]
    exact List.map_id sorted
  · intro d hd
    rw [hobjects] at hd
    obtain ⟨x, hx, rfl⟩ := List.mem_map.mp hd
    exact ⟨x, (List.mem_filter.mp hx).1, rfl⟩
  · intro x hx
    refine hregular.wellFormed ?_ hx
    intro o ho
    obtain ⟨_, _, _, _, hr⟩ := (mem_allObjects h).mp ho
    exact Object.ordered_pairwise_tag hr

/-- Three objects, each of which but the first holds an array of the one before. -/
def nestedDocument : Library :=
  .ofList [("a.yaml", "Object A:\n a[5]: bytes:7\nObject B:\n b[3]: A\nObject C:\n c[2]: B\n")]

/-- Pointers of eight bytes. -/
def wideOptions : EmitOptions := { pointerSize := 8 }

theorem wellFormed_of_emit_nested :
    ∃ p m b, (Program.load nestedDocument.source "a.yaml").1 = .ok p ∧ resolve p = .ok m ∧
      Bundle.emit wideOptions m = .ok b ∧ m.allObjects.map (Exact.sizeOf m 8) = [80, 272, 576] ∧
      ∃ sorted, Object.order m.allObjects = .ok sorted ∧ sorted.Perm m.allObjects ∧
        (Layout.ofObjects m wideOptions.pointerSize sorted).map Prod.fst = sorted ∧
        (∀ d ∈ b.objects, ∃ x ∈ Layout.ofObjects m wideOptions.pointerSize sorted,
          d = ObjectDescriptor.ofObject m wideOptions.naming x.1 x.2) ∧
        ∀ x ∈ Layout.ofObjects m wideOptions.pointerSize sorted,
          Layout.WellFormed m 8 (Layout.ofObjects m wideOptions.pointerSize sorted) x.1 x.2 := by
  have hok : (do
      let p ← (Program.load nestedDocument.source "a.yaml").1.toOption
      let m ← (resolve p).toOption
      let _ ← (Bundle.emit wideOptions m).toOption
      return m.allObjects.map (Exact.sizeOf m 8)) = some [80, 272, 576] := by decide +kernel
  obtain ⟨p, hp, hok⟩ := Option.bind_eq_some_iff.mp hok
  obtain ⟨m, hm, hok⟩ := Option.bind_eq_some_iff.mp hok
  obtain ⟨b, hb, hok⟩ := Option.bind_eq_some_iff.mp hok
  have hsizes : m.allObjects.map (Exact.sizeOf m 8) = [80, 272, 576] := Option.some.inj hok
  have hload := eq_ok_of_toOption_eq_some hp
  have hm := eq_ok_of_toOption_eq_some hm
  have hb := eq_ok_of_toOption_eq_some hb
  refine ⟨p, m, b, hload, hm, hb, hsizes, wellFormed_of_emit hload hm hb (Or.inr rfl) rfl ?_⟩
  intro o ho
  have hmem := List.mem_map_of_mem (f := Exact.sizeOf m 8) ho
  rw [hsizes] at hmem
  simp only [List.mem_cons, List.not_mem_nil, or_false] at hmem
  omega

end Model

end RecordSchema
