import RecordSchema.Proofs.Descriptor.Overflow

/-!
# Relative offsets

Fields are reached one from the other, by their distance from the end of the member before. In
words, even where numbers wrap, these distances lead to the offsets from the start of the struct.
Where the struct is within a word no distance is negative, and the counter of a repeated field
stands between the member before and the elements.
-/

namespace RecordSchema

open Text

namespace Layout

variable {e : Field → Int64 × Int64} {o : Object} {f : Field} {pointerSize : Int64}

/-- Whether the elements of a field fill its member, however many they are. -/
def IsFilled (l : Layout) (f : Field) : Prop :=
  (l.member f.name).size = (l.member f.name).elementSize * word (max 1 f.bound)

theorem size_place (f : Field) (size align stop : Int64) :
    (place f size align stop).size = size * word (max 1 f.bound) := by
  unfold place
  by_cases hr : f.isRepeated = true
  · have hbound : 0 < f.bound := of_decide_eq_true hr
    rw [if_pos hr, max_eq_right hbound]
  · have hbound : f.bound = 0 := by simpa [Field.isRepeated] using hr
    rw [if_neg hr, hbound]
    exact (Int64.mul_one size).symm

theorem member_identifier (pointerSize : Int64) (e : Field → Int64 × Int64) (o : Object) :
    (ofElements pointerSize e o).member o.identifier.name =
      { offset := (headerOf pointerSize o.fields.length).identifierOffset
        size := identifierSize
        elementSize := identifierSize } := by
  simp [member, ofElements]

theorem isFilled_ofElements (hnames : (o.fields.map Field.name).Nodup)
    (hbound : o.identifier.bound = 0)
    (hf : f ∈ o.fields) : (ofElements pointerSize e o).IsFilled f := by
  rw [IsFilled]
  rcases List.mem_cons.mp hf with rfl | hf
  · rw [member_identifier, hbound]
    exact (Int64.mul_one identifierSize).symm
  · obtain ⟨before, hmember⟩ := exists_member_eq (e := e) hnames hf pointerSize
    rw [hmember, size_place, elementSize_place]

theorem exists_plain_eq (m : Model) (pointerSize : Int64) (fuel : Nat) (o : Object) :
    ∃ e, plain m pointerSize fuel o = ofElements pointerSize e o := by
  cases fuel with
  | zero => exact ⟨_, rfl⟩
  | succ fuel => exact ⟨_, rfl⟩

end Layout

namespace FieldDescriptor

/-- The number of elements, one for a single field. -/
def elements (f : FieldDescriptor) : Nat := Max.max 1 f.bound

/-- Whether a field is reached from the one before it: its distance is counted from the last element
there, in words. -/
structure Follows (f g : FieldDescriptor) : Prop where
  previous_eq : g.previous = some f.member
  offset_eq : g.offset = f.offset + f.dataSize * Layout.word f.elements + g.dataOffset

/-- Whether the counter of a repeated field does not stand before the end of another field. -/
def Clears (f g : FieldDescriptor) : Prop :=
  0 < g.bound →
    f.offset.toInt + f.dataSize.toInt * f.elements ≤ g.offset.toInt + g.countOffset.toInt

section Chain

variable {m : Model} {naming : Naming} {l : Layout} {fs : List Field}

/-- What holds of fields next to each other, each described after the one before, holds of the
descriptors. -/
theorem isChain_ofFields {R : FieldDescriptor → FieldDescriptor → Prop} {index : Nat}
    {previous : Option Field}
    (h : fs.IsChain fun f g => ∀ i j before,
      R (ofField m naming l i before f) (ofField m naming l j (some f) g)) :
    (ofFields m naming l index previous fs).IsChain R := by
  induction fs generalizing index previous with
  | nil => exact .nil
  | cons f rest ih =>
      cases rest with
      | nil => exact .singleton _
      | cons g rest =>
          obtain ⟨hfirst, hrest⟩ := List.isChain_cons_cons.mp h
          exact List.isChain_cons_cons.mpr ⟨hfirst _ _ _, ih hrest⟩

theorem follows_ofField {f : Field} (hfilled : l.IsFilled f) (g : Field) (i j : Nat)
    (before : Option Field) :
    Follows (ofField m naming l i before f) (ofField m naming l j (some f) g) := by
  refine ⟨rfl, ?_⟩
  simp only [ofField, elements]
  rw [← hfilled, Int64.add_comm, Int64.sub_add_cancel]

theorem isChain_follows (hfilled : ∀ f ∈ fs, l.IsFilled f) (index : Nat) (previous : Option Field) :
    (ofFields m naming l index previous fs).IsChain Follows := by
  refine isChain_ofFields (List.Pairwise.isChain ?_)
  exact List.pairwise_of_forall_mem_list fun f hf g _ => follows_ofField (hfilled f hf) g

theorem forall_mem_of_isChain {P : FieldDescriptor → Prop} {f : FieldDescriptor}
    {rest : List FieldDescriptor} (h : (f :: rest).IsChain fun _ g => P g) : ∀ g ∈ rest, P g := by
  induction rest generalizing f with
  | nil => simp
  | cons g rest ih =>
      obtain ⟨hg, hrest⟩ := List.isChain_cons_cons.mp h
      exact List.forall_mem_cons.mpr ⟨hg, ih hrest⟩

end Chain

end FieldDescriptor

namespace Exact

/-- Whether a member of a layout in words is an exact one, which ends within a word. -/
structure IsMember (l : Layout) (y : Field × Member) : Prop where
  agrees : (l.member y.1.name).Agrees y.2
  stop_lt : y.2.stop < 2 ^ 63
  isPlaced : ∃ e, IsPlaced y.1 e y.2

section Members

variable {pointerSize : Nat} {element : Field → Nat × Nat} {o : Object} {y : Field × Member}

theorem isPlaced_of_mem_allMembers (hbound : o.identifier.bound = 0)
    (hy : y ∈ (ofElements pointerSize element o).allMembers pointerSize o) :
    ∃ e, IsPlaced y.1 e y.2 := by
  rcases List.mem_cons.mp hy with rfl | hy
  · have hsingle : ¬ o.identifier.isRepeated = true := by simp [Field.isRepeated, hbound]
    refine ⟨(Atomic.identifier.size, Atomic.identifier.size), ?_, ?_, rfl, ?_, ?_⟩
    · exact (if_neg hsingle).le
    · rw [hbound]
      rfl
    · exact fun h => dvd_alignUp _ h
    · exact fun h => absurd h hsingle
  · exact ⟨_, isPlaced_of_mem hy⟩

theorem isMember_toWords (hnodup : (o.fields.map Field.name).Nodup)
    (hbound : o.identifier.bound = 0)
    (hlt : (ofElements pointerSize element o).stop pointerSize o < 2 ^ 63) (size : Int64)
    (hy : y ∈ (ofElements pointerSize element o).allMembers pointerSize o) :
    IsMember { (ofElements pointerSize element o).toWords pointerSize o with size } y := by
  obtain ⟨hcount, helement, hstop⟩ := le_of_mem_allMembers hy
  refine ⟨?_, hstop.trans_lt hlt, isPlaced_of_mem_allMembers hbound hy⟩
  have hmember :
      (Layout.member { (ofElements pointerSize element o).toWords pointerSize o with size }
        y.1.name) = y.2.toWords := member_toWords hnodup hy
  rw [hmember]
  exact Member.agrees_toWords hcount helement (hstop.trans_lt hlt)

/-- The presence mask ends before the members of the other fields. -/
theorem mask_le_start (hy : y ∈ (ofElements pointerSize element o).members) :
    maskOffset pointerSize + maskSize o.fields.length ≤ y.2.start y.1 := by
  obtain ⟨before, hbefore, hplace, _⟩ := exists_place_of_mem hy
  rw [hplace]
  exact hbefore.trans (le_start_place _ _ _ _)

theorem allMembers_pairwise (pointerSize : Nat) (element : Field → Nat × Nat) (o : Object) :
    ((ofElements pointerSize element o).allMembers pointerSize o).Pairwise
      fun x y => x.2.stop ≤ y.2.start y.1 := by
  refine List.pairwise_cons.mpr ⟨fun y hy => ?_, placed_pairwise element o.ordered _⟩
  exact (Nat.le_add_right _ _).trans (mask_le_start hy)

end Members

end Exact

namespace FieldDescriptor

variable {m : Model} {naming : Naming} {l : Layout} {y z : Field × Exact.Member}

theorem toInt_count_ofField (hy : Exact.IsMember l y) (hr : 0 < y.1.bound) (i : Nat)
    (before : Option Field) :
    (ofField m naming l i before y.1).countOffset.toInt = (y.2.countOffset : Int) - y.2.offset := by
  have hrepeated : y.1.isRepeated = true := decide_eq_true hr
  simp only [ofField, hrepeated, if_true]
  exact toInt_sub_of_toInt_eq hy.agrees.countOffset_eq hy.agrees.offset_eq

/-- An exact member that starts after another one keeps its distance in words. -/
theorem clears_ofField (hy : Exact.IsMember l y) (hz : Exact.IsMember l z)
    (hle : y.2.stop ≤ z.2.start z.1) (i j : Nat) (before : Option Field) :
    0 ≤ (ofField m naming l j (some y.1) z.1).dataOffset.toInt ∧
      Clears (ofField m naming l i before y.1) (ofField m naming l j (some y.1) z.1) := by
  obtain ⟨_, hy'⟩ := hy.isPlaced
  obtain ⟨_, hz'⟩ := hz.isPlaced
  constructor
  · have hdata : (ofField m naming l j (some y.1) z.1).dataOffset.toInt = z.2.offset - y.2.stop :=
      toInt_sub_of_toInt_eq hz.agrees.offset_eq (hy.agrees.toInt_stop hy.stop_lt)
    have hstart := hz'.start_le
    omega
  · intro hr
    have hstop : y.2.stop = y.2.offset + y.2.elementSize * Max.max 1 y.1.bound := by
      rw [Exact.Member.stop, hy'.size_eq, hy'.elementSize_eq]
    obtain ⟨hstart, _, _⟩ := hz'.count (decide_eq_true hr)
    rw [toInt_count_ofField hz hr]
    simp only [ofField, elements]
    rw [hy.agrees.offset_eq, hy.agrees.elementSize_eq, hz.agrees.offset_eq, ← Int.natCast_mul]
    omega

theorem isChain_clears (m : Model) (naming : Naming) {ys : List (Field × Exact.Member)}
    (hys : ∀ y ∈ ys, Exact.IsMember l y)
    (hpairwise : ys.Pairwise fun x y => x.2.stop ≤ y.2.start y.1) (index : Nat)
    (previous : Option Field) :
    (ofFields m naming l index previous (ys.map Prod.fst)).IsChain
      fun f g => 0 ≤ g.dataOffset.toInt ∧ Clears f g := by
  refine isChain_ofFields ((List.isChain_map _).mpr (List.Pairwise.isChain ?_))
  exact hpairwise.imp_of_mem fun hx hy hle => clears_ofField (hys _ hx) (hys _ hy) hle

end FieldDescriptor

namespace ObjectDescriptor

/-- Whether the fields of an object are reached one from the other, starting with the identifier,
and single fields have no counter. -/
structure IsLinked (d : ObjectDescriptor) : Prop where
  first : ∃ f ∈ d.fields.head?, f.name = Field.identifierName ∧ f.bound = 0 ∧ f.previous = none ∧
    f.offset = d.header.identifierOffset ∧ f.dataOffset = d.header.identifierOffset
  follows : d.fields.IsChain FieldDescriptor.Follows
  single : ∀ f ∈ d.fields, f.bound = 0 → f.countOffset = 0

/-- Whether every field, with its counter, stands after the one before, and every counter after the
presence mask. -/
structure IsApart (d : ObjectDescriptor) : Prop where
  dataOffset_nonneg : ∀ f ∈ d.fields, 0 ≤ f.dataOffset.toInt
  count : ∀ f ∈ d.fields, 0 < f.bound →
    f.countOffset.toInt ≤ -2 ∧ 2 ∣ f.offset.toInt + f.countOffset.toInt ∧
      d.header.maskOffset.toInt + d.header.maskSize.toInt ≤ f.offset.toInt + f.countOffset.toInt
  clears : d.fields.IsChain FieldDescriptor.Clears

theorem isLinked_ofObject {o : Object} (hnodup : (o.fields.map Field.name).Nodup)
    (hbound : o.identifier.bound = 0) (hname : o.identifier.name = Field.identifierName) (m : Model)
    (naming : Naming) (pointerSize : Int64) (e : Field → Int64 × Int64) :
    (ofObject m naming o (Layout.ofElements pointerSize e o)).IsLinked := by
  refine ⟨⟨_, rfl, hname, hbound, rfl, ?_, ?_⟩, ?_, ?_⟩
  · exact congrArg Member.offset (Layout.member_identifier pointerSize e o)
  · exact congrArg Member.offset (Layout.member_identifier pointerSize e o)
  · exact FieldDescriptor.isChain_follows
      (fun f hf => Layout.isFilled_ofElements hnodup hbound hf) 0 none
  · intro f hf hsingle
    obtain ⟨g, _, i, before, rfl⟩ := FieldDescriptor.exists_ofField_of_mem hf
    have hrepeated : ¬ g.isRepeated = true := by
      simp only [FieldDescriptor.ofField] at hsingle
      simp [Field.isRepeated, hsingle]
    exact if_neg hrepeated

section Exact

variable {l : Layout} {o : Object} {pointerSize : Nat} {element : Field → Nat × Nat}

theorem count_ofField (hbound : o.identifier.bound = 0) {y : Field × Exact.Member}
    (hy : y ∈ (Exact.ofElements pointerSize element o).allMembers pointerSize o)
    (hexact : Exact.IsMember l y) (hr : 0 < y.1.bound) (m : Model) (naming : Naming) (i : Nat)
    (before : Option Field) :
    let f := FieldDescriptor.ofField m naming l i before y.1
    f.countOffset.toInt ≤ -2 ∧ 2 ∣ f.offset.toInt + f.countOffset.toInt ∧
      Exact.maskOffset pointerSize + Exact.maskSize o.fields.length ≤
        f.offset.toInt + f.countOffset.toInt := by
  obtain ⟨_, hplaced⟩ := hexact.isPlaced
  obtain ⟨hstart, hdvd, hcount⟩ := hplaced.count (decide_eq_true hr)
  have heven : 2 ∣ y.2.countOffset := hdvd
  have hmask : Exact.maskOffset pointerSize + Exact.maskSize o.fields.length ≤ y.2.start y.1 := by
    rcases List.mem_cons.mp hy with rfl | hy
    · -- The identifier is single.
      rw [hbound] at hr
      cases hr
    · exact Exact.mask_le_start hy
  have hoffset : (FieldDescriptor.ofField m naming l i before y.1).offset.toInt = y.2.offset :=
    hexact.agrees.offset_eq
  have hcountSize : countSize = 2 := rfl
  simp only
  rw [FieldDescriptor.toInt_count_ofField hexact hr, hoffset]
  omega

theorem isApart_ofObject (hbound : o.identifier.bound = 0)
    (hheader : l.header.Agrees pointerSize o.fields.length)
    (hmember : ∀ y ∈ (Exact.ofElements pointerSize element o).allMembers pointerSize o,
      Exact.IsMember l y) (m : Model) (naming : Naming) : (ofObject m naming o l).IsApart := by
  have hfields := Exact.map_fst_allMembers pointerSize element o
  have hchain := FieldDescriptor.isChain_clears m naming hmember
    (Exact.allMembers_pairwise pointerSize element o) 0 none
  rw [hfields] at hchain
  refine ⟨List.forall_mem_cons.mpr ⟨?_, ?_⟩, ?_, hchain.imp fun f g h => h.2⟩
  · have hidentifier : (l.member o.identifier.name).offset.toInt =
        Exact.identifierOffset pointerSize :=
      (hmember _ List.mem_cons_self).agrees.offset_eq
    simp only [FieldDescriptor.ofField]
    omega
  · exact FieldDescriptor.forall_mem_of_isChain (hchain.imp fun f g h => h.1)
  · intro f hf hr
    obtain ⟨g, hg, i, before, rfl⟩ := FieldDescriptor.exists_ofField_of_mem hf
    rw [← hfields] at hg
    obtain ⟨y, hy, rfl⟩ := List.mem_map.mp hg
    obtain ⟨hle, hdvd, hmask⟩ := count_ofField hbound hy (hmember y hy) hr m naming i before
    refine ⟨hle, hdvd, ?_⟩
    simp only [ofObject, hheader.maskOffset_eq, hheader.maskSize_eq]
    exact hmask

end Exact

end ObjectDescriptor

namespace Bundle

/-- The offsets of an emitted object can be told from the distances between its fields, and as long
as the exact size of the struct is a word the distances are such that the fields can be walked. -/
theorem isLinked_of_emit {source : Source} {root : Text} {p : Program} {m : Model}
    {options : EmitOptions} {b : Bundle} (hload : (Program.load source root).1 = .ok p)
    (h : Model.resolve p = .ok m) (hemit : emit options m = .ok b) :
    ∀ d ∈ b.objects, d.IsLinked ∧ ∃ o ∈ m.objects, d.name = o.name ∧ d.origin = o.origin ∧
      (Exact.sizeOf m (Exact.pointerSize options.pointerSize) o < 2 ^ 63 → d.IsApart) := by
  have hfrom := Program.loadedFrom_of_load hload
  intro d hd
  obtain ⟨o, ho, rfl⟩ := (mem_objects hfrom h hemit).mp hd
  have hin := Model.objects_subset hfrom h ho
  obtain ⟨_, _, _, _, hr⟩ := (Model.mem_allObjects h).mp hin
  have hnodup := Object.nodup_name_fields hr
  have hbound := Object.bound_identifier hr
  constructor
  · obtain ⟨e, hlayout⟩ := Layout.exists_plain_eq m
      (Layout.effectivePointerSize options.pointerSize) m.allObjects.length o
    rw [layoutOf, hlayout]
    exact ObjectDescriptor.isLinked_ofObject hnodup hbound
      (Object.name_identifier hr) m options.naming _ e
  · refine ⟨o, ho, rfl, rfl, fun hlt => ?_⟩
    obtain ⟨sorted, hsorted, _⟩ := objects_of_emit hemit
    obtain ⟨rank, hrank, hrank'⟩ := Model.exists_rank hfrom.loaded h hsorted
    have hall : ∀ o ∈ m.allObjects, ∀ f ∈ o.ordered, Exact.Storable m f :=
      fun o ho f hf => Model.storable_of_mem hfrom.loaded h ho hf
    have hstop : (Exact.frame m (Exact.pointerSize options.pointerSize) m.allObjects.length o).stop
        (Exact.pointerSize options.pointerSize) o < 2 ^ 63 := by
      rw [Exact.sizeOf, Exact.size_frame] at hlt
      exact (Exact.le_alignUp _ _).trans_lt hlt
    rw [layoutOf, Exact.effectivePointerSize_eq, Exact.plain_eq hrank hall hin (hrank' o hin) hstop]
    obtain ⟨element, hframe⟩ := Exact.exists_frame_eq m (Exact.pointerSize options.pointerSize)
      m.allObjects.length o
    rw [hframe] at hstop ⊢
    exact ObjectDescriptor.isApart_ofObject hbound (Exact.header_agrees hstop)
      (fun y hy => Exact.isMember_toWords hnodup hbound hstop _ hy) m options.naming

/-- An object with a single field, and one that holds three of them. -/
def heldDocument : Library :=
  .ofList [("a.yaml", "Object A:\n a: u16\nObject B:\n b[3]: A\n")]

/-- The offset, the distance and the place of the counter of each field. -/
def walk (d : ObjectDescriptor) : List (Int × Int × Int) :=
  d.fields.map fun f => (f.offset.toInt, f.dataOffset.toInt, f.countOffset.toInt)

theorem isLinked_of_emit_held :
    ∃ p m b, (Program.load heldDocument.source "a.yaml").1 = .ok p ∧ Model.resolve p = .ok m ∧
      emit Model.wideOptions m = .ok b ∧
      b.objects.map walk = [[(16, 16, 0), (26, 2, 0)], [(16, 16, 0), (32, 8, -6)]] ∧
      m.objects.map (Exact.sizeOf m 8) = [32, 128] ∧ ∀ d ∈ b.objects, d.IsLinked ∧ d.IsApart := by
  have hok : (do
      let p ← (Program.load heldDocument.source "a.yaml").1.toOption
      let m ← (Model.resolve p).toOption
      let b ← (emit Model.wideOptions m).toOption
      return (b.objects.map walk, m.objects.map (Exact.sizeOf m 8))) =
        some ([[(16, 16, 0), (26, 2, 0)], [(16, 16, 0), (32, 8, -6)]], [32, 128]) := by
    decide +kernel
  obtain ⟨p, hp, hok⟩ := Option.bind_eq_some_iff.mp hok
  obtain ⟨m, hm, hok⟩ := Option.bind_eq_some_iff.mp hok
  obtain ⟨b, hb, hok⟩ := Option.bind_eq_some_iff.mp hok
  obtain ⟨hwalk, hsizes⟩ := Prod.mk.inj (Option.some.inj hok)
  have hload := eq_ok_of_toOption_eq_some hp
  have hm := eq_ok_of_toOption_eq_some hm
  have hb := eq_ok_of_toOption_eq_some hb
  refine ⟨p, m, b, hload, hm, hb, hwalk, hsizes, fun d hd => ?_⟩
  obtain ⟨hlinked, o, ho, _, _, happart⟩ := isLinked_of_emit hload hm hb d hd
  have hmem := List.mem_map_of_mem (f := Exact.sizeOf m 8) ho
  rw [hsizes] at hmem
  simp only [List.mem_cons, List.not_mem_nil, or_false] at hmem
  have hpointer : Exact.pointerSize Model.wideOptions.pointerSize = 8 := rfl
  rw [hpointer] at happart
  exact ⟨hlinked, happart (by omega)⟩

end Bundle

end RecordSchema
