import RecordSchema.Proofs.Descriptor.Storage

/-!
# Layouts that leave the words

Bounds and sizes are words each on its own, but nothing bounds what they multiply to in arrays of
arrays. The numbers of a layout are the exact ones if and only if the last member ends, and the size
can be rounded up, within a word. Where the layout does not fit, the size of the struct is a wrong
number.
-/

namespace RecordSchema

open Text

namespace Exact

/-- The pointer size to lay out with. -/
def pointerSize (n : Int) : Nat := (if n ≤ 0 then Layout.defaultPointerSize else n).toNat

theorem effectivePointerSize_eq (n : Int) :
    Layout.effectivePointerSize n = Layout.word (pointerSize n) := by
  have hnonneg : 0 ≤ if n ≤ 0 then Layout.defaultPointerSize else n := by
    split
    · decide
    · omega
  rw [Layout.effectivePointerSize, pointerSize, Layout.word, ← Int64.ofInt_eq_ofNat,
    Int.toNat_of_nonneg hnonneg]

/-- The exact layout of an object of a model. -/
def ofObject (m : Model) (pointerSize : Nat) (o : Object) : Frame :=
  frame m pointerSize m.allObjects.length o

/-- Where the sum inside `alignUp` wraps, the result is no positive word. -/
theorem toInt_alignUp_nonpos {n align : Nat} (hone : 1 < align) (halign : align < 2 ^ 63)
    (hn : n < 2 ^ 63) (hlt : 2 ^ 63 < n + align) :
    (Layout.alignUp (Layout.word n) (Layout.word align)).toInt ≤ 0 := by
  have hle : ¬ Layout.word align ≤ 1 := by
    have hiff : Layout.word align ≤ 1 ↔ align ≤ 1 :=
      Int64.ofNat_le_iff_le halign (show 1 < 2 ^ 63 by omega)
    rw [hiff]
    omega
  obtain ⟨below, hbelow⟩ : ∃ below : Nat, n + align + below = 2 ^ 64 + 1 :=
    ⟨2 ^ 64 + 1 - n - align, by omega⟩
  have hsum : (Layout.word n + Layout.word align - 1).toInt = -(below : Int) := by
    rw [Int64.toInt_sub, Int64.toInt_add, Layout.toInt_word hn, Layout.toInt_word halign]
    simp only [Int64.toInt_one, Int.bmod]
    omega
  obtain ⟨q, hq⟩ : ∃ q, below / align = q := ⟨_, rfl⟩
  have hquotient : q ≤ below := hq ▸ Nat.div_le_self below align
  have hmultiple : q * align ≤ below := hq ▸ Nat.div_mul_le_self below align
  have hdiv : ((Layout.word n + Layout.word align - 1) / Layout.word align).toInt = -(q : Int) := by
    rw [Int64.toInt_div, hsum, Layout.toInt_word halign, Int.neg_tdiv, ← Int.ofNat_tdiv, hq]
    exact Int.bmod_eq_of_le_mul_two (by omega) (by omega)
  rw [Layout.alignUp, if_neg hle, Int64.toInt_mul, hdiv, Layout.toInt_word halign, Int.neg_mul,
    ← Int.natCast_mul, Int.bmod_eq_of_le_mul_two (by omega) (by omega)]
  omega

section Frames

variable {m : Model} {rank : Object → Nat} {pointerSize fuel : Nat} {o : Object}

/-- The size of a struct that does not fit is not the exact one: either no word is, or rounding it
up wraps. -/
theorem size_ne_of_not_fits (hrank : Layout.Ranked m rank)
    (hall : ∀ o ∈ m.allObjects, ∀ f ∈ o.ordered, Storable m f) (ho : o ∈ m.allObjects)
    (hf : rank o < fuel) (hfits : ¬ (frame m pointerSize fuel o).Fits pointerSize o) :
    (Layout.plain m (Layout.word pointerSize) fuel o).size.toInt ≠
      (frame m pointerSize fuel o).size := by
  have hle := le_alignUp ((frame m pointerSize fuel o).stop pointerSize o)
    (frame m pointerSize fuel o).align
  rw [← size_frame] at hle
  by_cases hlt : (frame m pointerSize fuel o).stop pointerSize o < 2 ^ 63
  · obtain ⟨element, heq⟩ := exists_frame_eq m pointerSize fuel o
    have hstart := start_le_stop pointerSize element o
    rw [← heq] at hstart
    have hmask := add_le_maskOffset pointerSize
    have halign : (frame m pointerSize fuel o).align = structAlign pointerSize :=
      align_frame hrank hall ho hf
    have hstruct : structAlign pointerSize < 2 ^ 63 := structAlign_lt (by omega)
    have hone : 1 < structAlign pointerSize := lt_max_of_lt_right (by decide)
    rw [Frame.Fits, halign] at hfits
    have hnonpos := toInt_alignUp_nonpos hone hstruct hlt (by omega)
    rw [plain_eq hrank hall ho hf hlt, halign]
    simp only
    omega
  · have hword := Int64.toInt_lt (Layout.plain m (Layout.word pointerSize) fuel o).size
    omega

end Frames

end Exact

/-- Whether the numbers of a member are exact. -/
structure Member.Agrees (x : Member) (y : Exact.Member) : Prop where
  offset_eq : x.offset.toInt = y.offset
  size_eq : x.size.toInt = y.size
  countOffset_eq : x.countOffset.toInt = y.countOffset
  elementSize_eq : x.elementSize.toInt = y.elementSize

/-- Whether the numbers of a header are exact. -/
structure Header.Agrees (pointerSize fields : Nat) (h : Header) : Prop where
  parentOffset_eq : h.parentOffset.toInt = pointerSize
  childIndexOffset_eq : h.childIndexOffset.toInt = pointerSize + countSize
  identifierOffset_eq : h.identifierOffset.toInt = Exact.identifierOffset pointerSize
  maskOffset_eq : h.maskOffset.toInt = Exact.maskOffset pointerSize
  maskSize_eq : h.maskSize.toInt = Exact.maskSize fields

/-- Whether the numbers of a layout are exact. -/
structure Layout.Agrees (pointerSize : Nat) (o : Object) (l : Layout) (x : Exact.Frame) : Prop where
  header : l.header.Agrees pointerSize o.fields.length
  member : ∀ y ∈ x.allMembers pointerSize o, (l.member y.1.name).Agrees y.2
  size_eq : l.size.toInt = x.size

/-- The numbers of the descriptor of a field. -/
structure FieldDescriptor.Numbers where
  offset : Int
  dataOffset : Int
  countOffset : Int
  dataSize : Int

def FieldDescriptor.numbers (d : FieldDescriptor) : Numbers :=
  ⟨d.offset.toInt, d.dataOffset.toInt, d.countOffset.toInt, d.dataSize.toInt⟩

/-- The exact numbers of the descriptors of members in order, after one that ends at `stop`. -/
def Exact.numbers : (stop : Int) → List (Field × Exact.Member) → List FieldDescriptor.Numbers
  | _, [] => []
  | stop, (f, x) :: rest =>
    ⟨x.offset, x.offset - stop, if f.isRepeated then x.countOffset - x.offset else 0,
      x.elementSize⟩ ::
      numbers x.stop rest

/-- Whether the numbers of the descriptor of an object are exact. -/
structure ObjectDescriptor.Agrees (pointerSize : Nat) (o : Object) (d : ObjectDescriptor)
    (x : Exact.Frame) : Prop where
  header : d.header.Agrees pointerSize o.fields.length
  fields_eq : d.fields.map FieldDescriptor.numbers = Exact.numbers 0 (x.allMembers pointerSize o)
  storageSize_eq : d.storageSize.toInt = x.size

section Sound

variable {pointerSize : Nat} {o : Object} {l : Layout} {x : Exact.Frame}

theorem toInt_sub_of_toInt_eq {a b : Int64} {c d : Nat} (ha : a.toInt = c) (hb : b.toInt = d) :
    (a - b).toInt = c - d := by
  have hlt := Int64.toInt_lt a
  have hlt' := Int64.toInt_lt b
  rw [Int64.toInt_sub, ha, hb]
  exact Int.bmod_eq_of_le_mul_two (by omega) (by omega)

theorem Member.Agrees.toInt_stop {a : Member} {y : Exact.Member} (h : a.Agrees y)
    (hlt : y.stop < 2 ^ 63) : (a.offset + a.size).toInt = y.stop := by
  unfold Exact.Member.stop at hlt ⊢
  rw [Int64.toInt_add, h.offset_eq, h.size_eq, Int.natCast_add]
  exact Int.bmod_eq_of_le_mul_two (by omega) (by omega)

theorem Exact.Member.agrees_toWords {y : Exact.Member} (hcount : y.countOffset ≤ y.offset)
    (helement : y.elementSize ≤ y.size) (hlt : y.stop < 2 ^ 63) : y.toWords.Agrees y := by
  unfold Exact.Member.stop at hlt
  exact ⟨Layout.toInt_word (by omega), Layout.toInt_word (by omega), Layout.toInt_word (by omega),
    Layout.toInt_word (by omega)⟩

theorem Exact.countOffset_place_le (f : Field) (size align stop : Nat) :
    (place f size align stop).countOffset ≤ (place f size align stop).offset := by
  unfold place
  split
  · exact (Nat.le_add_right _ _).trans (le_alignUp _ _)
  · exact Nat.zero_le _

theorem Exact.le_of_mem_allMembers {element : Field → Nat × Nat} {y : Field × Exact.Member}
    (hy : y ∈ (ofElements pointerSize element o).allMembers pointerSize o) :
    y.2.countOffset ≤ y.2.offset ∧ y.2.elementSize ≤ y.2.size ∧
      y.2.stop ≤ (ofElements pointerSize element o).stop pointerSize o := by
  rcases List.mem_cons.mp hy with rfl | hy
  · exact ⟨Nat.zero_le _, le_rfl,
      (Nat.le_add_right _ _).trans (start_le_stop pointerSize element o)⟩
  · obtain ⟨before, _, hplace, hstop⟩ := exists_place_of_mem hy
    have hplaced := isPlaced_of_mem hy
    rw [stop_ofElements]
    refine ⟨?_, ?_, hstop⟩
    · rw [hplace]
      exact countOffset_place_le _ _ _ _
    · rw [hplaced.elementSize_eq, hplaced.size_eq]
      exact Nat.le_mul_of_pos_right _ (by omega)

theorem Exact.header_agrees {element : Field → Nat × Nat}
    (hlt : (ofElements pointerSize element o).stop pointerSize o < 2 ^ 63) :
    (header pointerSize o.fields.length).Agrees pointerSize o.fields.length := by
  have hstart := start_le_stop pointerSize element o
  have hmask := add_le_maskOffset pointerSize
  have hidentifier : identifierOffset pointerSize ≤ maskOffset pointerSize := Nat.le_add_right _ _
  refine ⟨?_, ?_, ?_, ?_, ?_⟩
  · exact Layout.toInt_word (by omega)
  · exact Layout.toInt_word (by omega)
  · exact Layout.toInt_word (by omega)
  · exact Layout.toInt_word (by omega)
  · exact Layout.toInt_word (by omega)

/-- The numbers of an exact layout that fits are kept in words. -/
theorem Exact.agrees_toWords {element : Field → Nat × Nat}
    (hnodup : (o.fields.map Field.name).Nodup) (hpos : 0 < (ofElements pointerSize element o).align)
    (hfits : (ofElements pointerSize element o).Fits pointerSize o) :
    ((ofElements pointerSize element o).toWords pointerSize o).Agrees pointerSize o
      (ofElements pointerSize element o) := by
  have hsize := alignUp_lt ((ofElements pointerSize element o).stop pointerSize o) hpos
  rw [← size_ofElements] at hsize
  unfold Frame.Fits at hfits
  have hlt : (ofElements pointerSize element o).stop pointerSize o < 2 ^ 63 := by omega
  refine ⟨header_agrees hlt, ?_, ?_⟩
  · intro y hy
    obtain ⟨hcount, helement, hstop⟩ := le_of_mem_allMembers hy
    rw [member_toWords hnodup hy]
    exact Member.agrees_toWords hcount helement (by omega)
  · exact Layout.toInt_word (by omega)

namespace FieldDescriptor

variable {m : Model} {naming : Naming}

/-- The descriptors of members in order have exact numbers if the members do. -/
theorem numbers_ofFields {ys : List (Field × Exact.Member)}
    (h : ∀ y ∈ ys, (l.member y.1.name).Agrees y.2 ∧ y.2.stop < 2 ^ 63) {index stop : Nat}
    {previous : Option Field}
    (hstop : match previous with
      | none => stop = 0
      | some p => ((l.member p.name).offset + (l.member p.name).size).toInt = stop) :
    (ofFields m naming l index previous (ys.map Prod.fst)).map numbers = Exact.numbers stop ys := by
  induction ys generalizing index stop previous with
  | nil => rfl
  | cons y rest ih =>
      obtain ⟨⟨hy, hlt⟩, hrest⟩ := List.forall_mem_cons.mp h
      have hdata : (ofField m naming l index previous y.1).dataOffset.toInt =
          y.2.offset - stop := by
        cases previous with
        | none =>
            simp only at hstop
            simp only [ofField]
            rw [hy.offset_eq, hstop]
            omega
        | some p => exact toInt_sub_of_toInt_eq hy.offset_eq hstop
      have hcount : (ofField m naming l index previous y.1).countOffset.toInt =
          if y.1.isRepeated then (y.2.countOffset : Int) - y.2.offset else 0 := by
        simp only [ofField]
        split
        · exact toInt_sub_of_toInt_eq hy.countOffset_eq hy.offset_eq
        · rfl
      have hnumbers : numbers (ofField m naming l index previous y.1) =
          ⟨y.2.offset, y.2.offset - stop,
            if y.1.isRepeated then (y.2.countOffset : Int) - y.2.offset else 0,
            y.2.elementSize⟩ := by
        rw [numbers, hdata, hcount]
        simp only [ofField]
        rw [hy.offset_eq, hy.elementSize_eq]
      rw [List.map_cons, ofFields, List.map_cons, hnumbers, ih hrest (hy.toInt_stop hlt)]
      rfl

end FieldDescriptor

/-- The descriptor of an object has exact numbers if its layout has. -/
theorem Layout.Agrees.ofObject (h : l.Agrees pointerSize o x) (m : Model) (naming : Naming)
    (hfields : (x.allMembers pointerSize o).map Prod.fst = o.fields)
    (hstop : ∀ y ∈ x.allMembers pointerSize o, y.2.stop < 2 ^ 63) :
    (ObjectDescriptor.ofObject m naming o l).Agrees pointerSize o x := by
  refine ⟨h.header, ?_, h.size_eq⟩
  rw [ObjectDescriptor.ofObject, ← hfields]
  exact FieldDescriptor.numbers_ofFields (fun y hy => ⟨h.member y hy, hstop y hy⟩) rfl

end Sound

section Objects

variable {m : Model} {rank : Object → Nat} {pointerSize : Nat} {o : Object}

theorem Exact.agrees_of_fits (hrank : Layout.Ranked m rank)
    (hall : ∀ o ∈ m.allObjects, ∀ f ∈ o.ordered, Storable m f) (ho : o ∈ m.allObjects)
    (hbound : rank o < m.allObjects.length) (hnodup : (o.fields.map Field.name).Nodup)
    (naming : Naming) (hfits : (ofObject m pointerSize o).Fits pointerSize o) :
    (Layout.plain m (Layout.word pointerSize) m.allObjects.length o).Agrees pointerSize o
        (ofObject m pointerSize o) ∧
      (ObjectDescriptor.ofObject m naming o
        (Layout.plain m (Layout.word pointerSize) m.allObjects.length o)).Agrees pointerSize o
          (ofObject m pointerSize o) := by
  have hpos : 0 < (ofObject m pointerSize o).align := by
    rw [ofObject, align_frame hrank hall ho hbound]
    exact lt_max_of_lt_right (by decide)
  have hplain : Layout.plain m (Layout.word pointerSize) m.allObjects.length o =
      (ofObject m pointerSize o).toWords pointerSize o :=
    plain_eq_of_fits hrank hall ho hbound hfits
  obtain ⟨element, heq⟩ : ∃ element, ofObject m pointerSize o = ofElements pointerSize element o :=
    exists_frame_eq m pointerSize m.allObjects.length o
  rw [hplain]
  rw [heq] at hpos hfits ⊢
  have hagrees := agrees_toWords hnodup hpos hfits
  refine ⟨hagrees, hagrees.ofObject m naming (map_fst_allMembers pointerSize element o) ?_⟩
  intro y hy
  obtain ⟨_, _, hstop⟩ := le_of_mem_allMembers hy
  unfold Frame.Fits at hfits
  omega

theorem Exact.fits_of_size_eq (hrank : Layout.Ranked m rank)
    (hall : ∀ o ∈ m.allObjects, ∀ f ∈ o.ordered, Storable m f) (ho : o ∈ m.allObjects)
    (hbound : rank o < m.allObjects.length)
    (heq : (Layout.plain m (Layout.word pointerSize) m.allObjects.length o).size.toInt =
      (ofObject m pointerSize o).size) : (ofObject m pointerSize o).Fits pointerSize o := by
  by_contra hfits
  exact size_ne_of_not_fits hrank hall ho hbound hfits heq

end Objects

namespace Model

variable {source : Source} {p : Program} {m : Model}

theorem agrees_of_mem_ofObjects (hloaded : Loaded source p.namespaces) (h : resolve p = .ok m)
    {sorted : List Object} (hsorted : Object.order m.allObjects = .ok sorted) {size : Int}
    {pointerSize : Nat} (hpointer : Exact.pointerSize size = pointerSize) (naming : Naming)
    {x : Object × Layout} (hx : x ∈ Layout.ofObjects m size sorted) :
    ((Exact.ofObject m pointerSize x.1).Fits pointerSize x.1 →
      x.2.Agrees pointerSize x.1 (Exact.ofObject m pointerSize x.1) ∧
        (ObjectDescriptor.ofObject m naming x.1 x.2).Agrees pointerSize x.1
          (Exact.ofObject m pointerSize x.1)) ∧
      (x.2.size.toInt = (Exact.ofObject m pointerSize x.1).size →
        (Exact.ofObject m pointerSize x.1).Fits pointerSize x.1) := by
  obtain ⟨rank, hrank, hbound⟩ := exists_rank hloaded h hsorted
  have hall : ∀ o ∈ m.allObjects, ∀ f ∈ o.ordered, Exact.Storable m f :=
    fun o ho f hf => storable_of_mem hloaded h ho hf
  rw [ofObjects_eq_plain hloaded h hsorted, Exact.effectivePointerSize_eq, hpointer] at hx
  obtain ⟨o, ho, rfl⟩ := List.mem_map.mp hx
  have ho := (Object.order_eq_ok (nodup_key_allObjects hloaded h) hsorted).1.mem_iff.mp ho
  obtain ⟨_, _, _, _, hr⟩ := (mem_allObjects h).mp ho
  constructor
  · exact Exact.agrees_of_fits hrank hall ho (hbound o ho) (Object.nodup_name_fields hr) naming
  · exact Exact.fits_of_size_eq hrank hall ho (hbound o ho)

/-- What is emitted for an object has exact numbers if and only if its layout fits; whether it does
can be told from the storage size alone. -/
theorem agrees_iff_fits {root : Text} (hload : (Program.load source root).1 = .ok p)
    (h : resolve p = .ok m) {options : EmitOptions} {b : Bundle}
    (hemit : Bundle.emit options m = .ok b) {pointerSize : Nat}
    (hpointer : Exact.pointerSize options.pointerSize = pointerSize) :
    ∃ sorted, Object.order m.allObjects = .ok sorted ∧ sorted.Perm m.allObjects ∧
      (Layout.ofObjects m options.pointerSize sorted).map Prod.fst = sorted ∧
      (∀ x ∈ Layout.ofObjects m options.pointerSize sorted,
        (x.2.Agrees pointerSize x.1 (Exact.ofObject m pointerSize x.1) ↔
          (Exact.ofObject m pointerSize x.1).Fits pointerSize x.1) ∧
        (x.2.size.toInt = (Exact.ofObject m pointerSize x.1).size ↔
          (Exact.ofObject m pointerSize x.1).Fits pointerSize x.1)) ∧
      ∀ d ∈ b.objects, ∃ x ∈ Layout.ofObjects m options.pointerSize sorted,
        d = ObjectDescriptor.ofObject m options.naming x.1 x.2 ∧
        (d.Agrees pointerSize x.1 (Exact.ofObject m pointerSize x.1) ↔
          (Exact.ofObject m pointerSize x.1).Fits pointerSize x.1) := by
  have hloaded := (Program.loadedFrom_of_load hload).loaded
  obtain ⟨sorted, hsorted, hobjects⟩ := Bundle.objects_of_emit hemit
  refine ⟨sorted, hsorted, ?_, ?_, ?_, ?_⟩
  · exact (Object.order_eq_ok (nodup_key_allObjects hloaded h) hsorted).1
  · rw [ofObjects_eq_plain hloaded h hsorted, List.map_map]
    exact List.map_id sorted
  · intro x hx
    obtain ⟨hagrees, hfits⟩ := agrees_of_mem_ofObjects hloaded h hsorted hpointer options.naming hx
    constructor
    · exact ⟨fun ha => hfits ha.size_eq, fun hf => (hagrees hf).1⟩
    · exact ⟨hfits, fun hf => (hagrees hf).1.size_eq⟩
  · intro d hd
    rw [hobjects] at hd
    obtain ⟨x, hx, rfl⟩ := List.mem_map.mp hd
    have hx := (List.mem_filter.mp hx).1
    obtain ⟨hagrees, hfits⟩ := agrees_of_mem_ofObjects hloaded h hsorted hpointer options.naming hx
    refine ⟨x, hx, rfl, ?_, ?_⟩
    · exact fun ha => hfits ha.storageSize_eq
    · exact fun hf => (hagrees hf).2

/-- An object that is almost half as long as the words go, and one that holds three of them. -/
def longDocument : Library :=
  .ofList [("a.yaml", "Object A:\n a[2147483647]: string:2147483647\nObject B:\n b[3]: A\n")]

/-- The second object wraps around to a negative size. -/
theorem agrees_iff_fits_long :
    ∃ p m b, (Program.load longDocument.source "a.yaml").1 = .ok p ∧ resolve p = .ok m ∧
      Bundle.emit wideOptions m = .ok b ∧
      b.objects.map (fun d => d.storageSize.toInt) = [4611686014132420640, -4611686031312289656] ∧
      m.allObjects.map (fun o => (Exact.ofObject m 8 o).size) =
        [4611686014132420640, 13835058042397261952] ∧
      m.allObjects.map (fun o => decide ((Exact.ofObject m 8 o).Fits 8 o)) = [true, false] ∧
      ∃ sorted, Object.order m.allObjects = .ok sorted ∧ sorted.Perm m.allObjects ∧
        (Layout.ofObjects m wideOptions.pointerSize sorted).map Prod.fst = sorted ∧
        (∀ x ∈ Layout.ofObjects m wideOptions.pointerSize sorted,
          (x.2.Agrees 8 x.1 (Exact.ofObject m 8 x.1) ↔ (Exact.ofObject m 8 x.1).Fits 8 x.1) ∧
          (x.2.size.toInt = (Exact.ofObject m 8 x.1).size ↔ (Exact.ofObject m 8 x.1).Fits 8 x.1)) ∧
        ∀ d ∈ b.objects, ∃ x ∈ Layout.ofObjects m wideOptions.pointerSize sorted,
          d = ObjectDescriptor.ofObject m wideOptions.naming x.1 x.2 ∧
          (d.Agrees 8 x.1 (Exact.ofObject m 8 x.1) ↔ (Exact.ofObject m 8 x.1).Fits 8 x.1) := by
  have hok : (do
      let p ← (Program.load longDocument.source "a.yaml").1.toOption
      let m ← (resolve p).toOption
      let b ← (Bundle.emit wideOptions m).toOption
      return (b.objects.map fun d => d.storageSize.toInt,
        m.allObjects.map fun o => (Exact.ofObject m 8 o).size,
        m.allObjects.map fun o => decide ((Exact.ofObject m 8 o).Fits 8 o))) =
        some ([4611686014132420640, -4611686031312289656],
          [4611686014132420640, 13835058042397261952], [true, false]) := by decide +kernel
  obtain ⟨p, hp, hok⟩ := Option.bind_eq_some_iff.mp hok
  obtain ⟨m, hm, hok⟩ := Option.bind_eq_some_iff.mp hok
  obtain ⟨b, hb, hok⟩ := Option.bind_eq_some_iff.mp hok
  obtain ⟨hstorage, hok⟩ := Prod.mk.inj (Option.some.inj hok)
  obtain ⟨hsizes, hfits⟩ := Prod.mk.inj hok
  have hload := eq_ok_of_toOption_eq_some hp
  have hm := eq_ok_of_toOption_eq_some hm
  have hb := eq_ok_of_toOption_eq_some hb
  exact ⟨p, m, b, hload, hm, hb, hstorage, hsizes, hfits, agrees_iff_fits hload hm hb rfl⟩

end Model

end RecordSchema
