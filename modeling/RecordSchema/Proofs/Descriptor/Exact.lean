import Mathlib.Tactic.IntervalCases
import RecordSchema.Proofs.Descriptor.Recursion

/-!
# Layouts in natural numbers

The same layout without a bound on numbers. As long as the last member of an object, and the
rounding of its size, stay within a word, the layout in words is the exact one. Where the size of a
pointer divides eight every alignment does, so members that are placed one after the other stay
apart and aligned.
-/

namespace RecordSchema.Exact

open Text

/-- The first multiple of `align` that is not below `n`. -/
def alignUp (n align : Nat) : Nat := if align ≤ 1 then n else (n + align - 1) / align * align

theorem word_add (a b : Nat) : Layout.word a + Layout.word b = Layout.word (a + b) :=
  (Int64.ofNat_add a b).symm

theorem word_mul (a b : Nat) : Layout.word a * Layout.word b = Layout.word (a * b) :=
  (Int64.ofNat_mul a b).symm

section AlignUp

variable {n align : Nat}

theorem le_alignUp (n align : Nat) : n ≤ alignUp n align := by
  unfold alignUp
  split
  · exact le_rfl
  · have hlt := Nat.lt_div_mul_add (a := n + align - 1) (show 0 < align by omega)
    omega

theorem alignUp_lt (n : Nat) (h : 0 < align) : alignUp n align < n + align := by
  unfold alignUp
  split
  · omega
  · have hle := Nat.div_mul_le_self (n + align - 1) align
    omega

theorem dvd_alignUp (n : Nat) (h : 0 < align) : align ∣ alignUp n align := by
  unfold alignUp
  split
  · have hone : align = 1 := by omega
    rw [hone]
    exact one_dvd n
  · exact Nat.dvd_mul_left _ _

/-- No sum inside `alignUp` wraps where one alignment more is still within a word. -/
theorem alignUp_word (halign : align < 2 ^ 63) (hlt : n + align ≤ 2 ^ 63) :
    Layout.alignUp (Layout.word n) (Layout.word align) = Layout.word (alignUp n align) := by
  have hone : Layout.word align ≤ 1 ↔ align ≤ 1 :=
    Int64.ofNat_le_iff_le halign (show 1 < 2 ^ 63 by omega)
  unfold Layout.alignUp alignUp
  simp only [hone]
  by_cases hsmall : align ≤ 1
  · rw [if_pos hsmall, if_pos hsmall]
  · rw [if_neg hsmall, if_neg hsmall]
    have hsum : Layout.word n + Layout.word align - 1 = Layout.word (n + align - 1) := by
      rw [Layout.word, Layout.word, Layout.word, Int64.ofNat_sub _ _ (by omega), Int64.ofNat_add]
      rfl
    rw [hsum, Layout.word, Layout.word, ← Int64.ofNat_div (by omega) halign, ← Int64.ofNat_mul]
    rfl

end AlignUp

/-- The storage of a field. -/
structure Member where
  offset : Nat
  /-- All elements together. -/
  size : Nat
  /-- The counter of a repeated field. -/
  countOffset : Nat := 0
  elementSize : Nat

/-- The member of a field whose elements have the given size and alignment, after the members that
end at `stop`. -/
def place (f : Field) (size align stop : Nat) : Member :=
  if f.isRepeated then
    let count := alignUp stop countSize
    { offset := alignUp (count + countSize) align
      size := size * f.bound
      countOffset := count
      elementSize := size }
  else { offset := alignUp stop align, size, elementSize := size }

namespace Member

/-- The end of the last element. -/
def stop (x : Member) : Nat := x.offset + x.size

/-- Where the storage of a field starts. -/
def start (f : Field) (x : Member) : Nat := if f.isRepeated then x.countOffset else x.offset

def toWords (x : Member) : RecordSchema.Member :=
  { offset := Layout.word x.offset
    size := Layout.word x.size
    countOffset := Layout.word x.countOffset
    elementSize := Layout.word x.elementSize }

theorem stop_toWords (x : Member) : x.toWords.offset + x.toWords.size = Layout.word x.stop :=
  word_add x.offset x.size

end Member

section Place

variable {f : Field} {size align stop : Nat}

theorem le_start_place (f : Field) (size align stop : Nat) :
    stop ≤ (place f size align stop).start f := by
  unfold place Member.start
  split
  · exact le_alignUp stop countSize
  · exact le_alignUp stop align

/-- How the storage of a field is laid out whose elements have a size and an alignment. -/
structure IsPlaced (f : Field) (e : Nat × Nat) (x : Member) : Prop where
  start_le : x.start f ≤ x.offset
  size_eq : x.size = e.1 * max 1 f.bound
  elementSize_eq : x.elementSize = e.1
  dvd_offset : 0 < e.2 → e.2 ∣ x.offset
  /-- The counter of a repeated field stands before its elements. -/
  count : f.isRepeated = true →
    x.start f = x.countOffset ∧ countSize ∣ x.countOffset ∧ x.countOffset + countSize ≤ x.offset

theorem isPlaced_place (f : Field) (e : Nat × Nat) (stop : Nat) :
    IsPlaced f e (place f e.1 e.2 stop) := by
  unfold place
  by_cases hr : f.isRepeated = true
  · have hbound : 0 < f.bound := of_decide_eq_true hr
    have hle := le_alignUp (alignUp stop countSize + countSize) e.2
    have hstart : Member.start f
        { offset := alignUp (alignUp stop countSize + countSize) e.2, size := e.1 * f.bound,
          countOffset := alignUp stop countSize, elementSize := e.1 } = alignUp stop countSize :=
      if_pos hr
    rw [if_pos hr]
    refine ⟨?_, ?_, rfl, fun h => dvd_alignUp _ h,
      fun _ => ⟨hstart, dvd_alignUp _ (by decide), hle⟩⟩
    · rw [hstart]
      exact (Nat.le_add_right _ _).trans hle
    · rw [max_eq_right hbound]
  · have hbound : f.bound = 0 := by simpa [Field.isRepeated] using hr
    rw [if_neg hr]
    refine ⟨?_, ?_, rfl, fun h => dvd_alignUp _ h, fun h => absurd h hr⟩
    · exact (if_neg hr).le
    · rw [hbound]
      simp

/-- A member that ends within a word leaves room for every rounding before it, since its elements
are no smaller than their alignment. -/
theorem place_word (hle : align ≤ size) (hlt : (place f size align stop).stop < 2 ^ 63) :
    Layout.place f (Layout.word size) (Layout.word align) (Layout.word stop) =
      (place f size align stop).toWords := by
  have hcounter : Layout.counterSize = Layout.word countSize := rfl
  have hcountSize : countSize = 2 := rfl
  unfold Layout.place
  unfold Member.stop at hlt
  unfold place at hlt ⊢
  by_cases hr : f.isRepeated = true
  · rw [if_pos hr] at hlt ⊢
    rw [if_pos hr]
    have hsize : size ≤ size * f.bound := Nat.le_mul_of_pos_right size (of_decide_eq_true hr)
    have hcount := le_alignUp stop countSize
    have hoffset := le_alignUp (alignUp stop countSize + countSize) align
    simp only at hlt
    simp only [Member.toWords, hcounter]
    rw [alignUp_word (by omega) (by omega), word_add, alignUp_word (by omega) (by omega), word_mul]
  · rw [if_neg hr] at hlt ⊢
    have hoffset := le_alignUp stop align
    simp only at hlt
    rw [if_neg hr, alignUp_word (by omega) (by omega)]
    rfl

end Place

/-- The members of fields in order, after those that end at `stop`. -/
def placed (element : Field → Nat × Nat) : List Field → (stop : Nat) → List (Field × Member)
  | [], _ => []
  | f :: rest, stop =>
    let x := place f (element f).1 (element f).2 stop
    (f, x) :: placed element rest x.stop

/-- The end of the last member. -/
def stopOf (element : Field → Nat × Nat) : List Field → (stop : Nat) → Nat
  | [], stop => stop
  | f :: rest, stop => stopOf element rest (place f (element f).1 (element f).2 stop).stop

/-- The greatest alignment of fields. -/
def alignOf (element : Field → Nat × Nat) (fs : List Field) (align : Nat) : Nat :=
  fs.foldl (fun align f => max align (element f).2) align

section Placed

variable {element : Field → Nat × Nat} {fs : List Field} {stop align : Nat}

theorem map_fst_placed (element : Field → Nat × Nat) (fs : List Field) (stop : Nat) :
    (placed element fs stop).map Prod.fst = fs := by
  induction fs generalizing stop with
  | nil => rfl
  | cons f rest ih => rw [placed, List.map_cons, ih]

theorem le_stop_place (f : Field) (size align stop : Nat) :
    stop ≤ (place f size align stop).stop := by
  have hstart := le_start_place f size align stop
  have hoffset := (isPlaced_place f (size, align) stop).start_le
  unfold Member.stop
  simp only at hoffset
  omega

theorem le_stopOf (fs : List Field) (stop : Nat) : stop ≤ stopOf element fs stop := by
  induction fs generalizing stop with
  | nil => exact le_rfl
  | cons f rest ih => exact (le_stop_place f _ _ stop).trans (ih _)

/-- Every member is placed after some of the others and ends before the last one does. -/
theorem exists_place_of_mem {x : Field × Member} (hx : x ∈ placed element fs stop) :
    ∃ before, stop ≤ before ∧ x.2 = place x.1 (element x.1).1 (element x.1).2 before ∧
      x.2.stop ≤ stopOf element fs stop := by
  induction fs generalizing stop with
  | nil => cases hx
  | cons f rest ih =>
      rcases List.mem_cons.mp hx with rfl | hx
      · exact ⟨stop, le_rfl, rfl, le_stopOf rest _⟩
      · obtain ⟨before, hbefore, hplace, hstop⟩ := ih hx
        exact ⟨before, (le_stop_place f _ _ stop).trans hbefore, hplace, hstop⟩

/-- Members follow each other. -/
theorem placed_pairwise (element : Field → Nat × Nat) (fs : List Field) (stop : Nat) :
    (placed element fs stop).Pairwise fun x y => x.2.stop ≤ y.2.start y.1 := by
  induction fs generalizing stop with
  | nil => exact .nil
  | cons f rest ih =>
      refine List.pairwise_cons.mpr ⟨?_, ih _⟩
      intro y hy
      obtain ⟨before, hbefore, hplace, _⟩ := exists_place_of_mem hy
      rw [hplace]
      exact hbefore.trans (le_start_place y.1 _ _ before)

theorem isPlaced_of_mem {x : Field × Member} (hx : x ∈ placed element fs stop) :
    IsPlaced x.1 (element x.1) x.2 := by
  obtain ⟨before, _, hplace, _⟩ := exists_place_of_mem hx
  rw [hplace]
  exact isPlaced_place x.1 (element x.1) before

theorem element_le_stopOf {f : Field} (hf : f ∈ fs) :
    stop + (element f).1 ≤ stopOf element fs stop := by
  rw [← map_fst_placed element fs stop] at hf
  obtain ⟨x, hx, rfl⟩ := List.mem_map.mp hf
  obtain ⟨before, hbefore, hplace, hstop⟩ := exists_place_of_mem hx
  have hplaced := isPlaced_of_mem hx
  have hstart := le_start_place x.1 (element x.1).1 (element x.1).2 before
  rw [← hplace] at hstart
  have hone : (element x.1).1 ≤ x.2.size := by
    rw [hplaced.size_eq]
    exact Nat.le_mul_of_pos_right _ (by omega)
  have hoffset := hplaced.start_le
  unfold Member.stop at hstop
  omega

theorem alignOf_eq (h : ∀ f ∈ fs, (element f).2 ≤ align) : alignOf element fs align = align := by
  induction fs with
  | nil => rfl
  | cons f rest ih =>
      obtain ⟨hf, hrest⟩ := List.forall_mem_cons.mp h
      rw [alignOf, List.foldl_cons, max_eq_left hf]
      exact ih hrest

theorem max_word {a b : Nat} (ha : a < 2 ^ 63) (hb : b < 2 ^ 63) :
    (if Layout.word a < Layout.word b then Layout.word b else Layout.word a) =
      Layout.word (max a b) := by
  have hlt : Layout.word a < Layout.word b ↔ a < b := Int64.ofNat_lt_iff_lt ha hb
  simp only [hlt]
  split
  · next h => rw [max_eq_right h.le]
  · next h => rw [max_eq_left (by omega)]

/-- The members in words are the exact ones as long as the last one ends within a word. -/
theorem placed_word (hle : ∀ f ∈ fs, (element f).2 ≤ (element f).1) (halign : align < 2 ^ 63)
    (hlt : stopOf element fs stop < 2 ^ 63) :
    Layout.placed (fun f => (Layout.word (element f).1, Layout.word (element f).2)) fs
        (Layout.word stop) (Layout.word align) =
      ((placed element fs stop).map fun x => (x.1.name, x.2.toWords),
        Layout.word (stopOf element fs stop), Layout.word (alignOf element fs align)) := by
  induction fs generalizing stop align with
  | nil => rfl
  | cons f rest ih =>
      obtain ⟨hf, hrest⟩ := List.forall_mem_cons.mp hle
      have hstop : (place f (element f).1 (element f).2 stop).stop < 2 ^ 63 :=
        (le_stopOf rest _).trans_lt hlt
      have helement : (element f).2 < 2 ^ 63 := by
        have hroom : stop + (element f).1 ≤ stopOf element (f :: rest) stop :=
          element_le_stopOf List.mem_cons_self
        omega
      simp only [Layout.placed]
      rw [place_word hf hstop, max_word halign helement, Member.stop_toWords,
        ih hrest (max_lt halign helement) hlt]
      rfl

end Placed

/-- Where the identifier stands in the header. -/
def identifierOffset (pointerSize : Nat) : Nat :=
  alignUp (pointerSize + countSize + 1) Atomic.identifier.size

/-- Where the presence mask stands. -/
def maskOffset (pointerSize : Nat) : Nat := identifierOffset pointerSize + Atomic.identifier.size

/-- The size of the mask for a number of fields. -/
def maskSize (fields : Nat) : Nat := (fields * 2 + 7) / 8

/-- The alignment of a struct with members that need no more. -/
def structAlign (pointerSize : Nat) : Nat := max pointerSize Atomic.identifier.size

/-- The layout of an object after its header. -/
structure Frame where
  members : List (Field × Member)
  size : Nat
  align : Nat

/-- The layout of an object, given the size and the alignment of its elements. -/
def ofElements (pointerSize : Nat) (element : Field → Nat × Nat) (o : Object) : Frame :=
  let start := maskOffset pointerSize + maskSize o.fields.length
  let align := alignOf element o.ordered (max pointerSize Atomic.identifier.size)
  { members := placed element o.ordered start
    size := alignUp (stopOf element o.ordered start) align
    align }

/-- The end of the last member, or of the mask where there is none. -/
def Frame.stop (pointerSize : Nat) (o : Object) (x : Frame) : Nat :=
  x.members.foldl (fun _ y => y.2.stop) (maskOffset pointerSize + maskSize o.fields.length)

/-- Whether the last member ends, and the size can be rounded up, within a word. -/
def Frame.Fits (pointerSize : Nat) (o : Object) (x : Frame) : Prop :=
  x.stop pointerSize o + x.align ≤ 2 ^ 63

instance (pointerSize : Nat) (o : Object) (x : Frame) : Decidable (x.Fits pointerSize o) :=
  inferInstanceAs (Decidable (_ ≤ _))

/-- The header of an object with a number of fields, in words. -/
def header (pointerSize fields : Nat) : Header :=
  { parentOffset := Layout.word pointerSize
    childIndexOffset := Layout.word (pointerSize + countSize)
    identifierOffset := Layout.word (identifierOffset pointerSize)
    maskOffset := Layout.word (maskOffset pointerSize)
    maskSize := Layout.word (maskSize fields) }

/-- The layout of an object in words. -/
def Frame.toWords (pointerSize : Nat) (o : Object) (x : Frame) : Layout :=
  { header := header pointerSize o.fields.length
    members :=
      (o.identifier.name,
        { offset := Layout.word (identifierOffset pointerSize)
          size := Layout.identifierSize
          elementSize := Layout.identifierSize }) ::
        x.members.map fun y => (y.1.name, y.2.toWords)
    size := Layout.word x.size
    align := Layout.word x.align }

section Words

variable {pointerSize : Nat}

theorem add_le_maskOffset (pointerSize : Nat) :
    pointerSize + countSize + 1 + Atomic.identifier.size ≤ maskOffset pointerSize :=
  Nat.add_le_add_right (le_alignUp _ _) _

theorem headerOf_word (hlt : maskOffset pointerSize < 2 ^ 63) (fields : Nat) :
    Layout.headerOf (Layout.word pointerSize) fields = header pointerSize fields := by
  have hmask := add_le_maskOffset pointerSize
  have hidentifier : Layout.alignUp
      (Layout.word pointerSize + Layout.word countSize + Layout.word 1)
      (Layout.word Atomic.identifier.size) = Layout.word (identifierOffset pointerSize) := by
    rw [word_add, word_add]
    exact alignUp_word (by decide) (by omega)
  change Header.mk 0 (Layout.word pointerSize) (Layout.word pointerSize + Layout.word countSize)
    (Layout.alignUp (Layout.word pointerSize + Layout.word countSize + Layout.word 1)
      (Layout.word Atomic.identifier.size))
    (Layout.alignUp (Layout.word pointerSize + Layout.word countSize + Layout.word 1)
      (Layout.word Atomic.identifier.size) + Layout.word Atomic.identifier.size)
    (Layout.word (maskSize fields)) = _
  rw [hidentifier, word_add, word_add]
  rfl

theorem stop_ofElements (pointerSize : Nat) (element : Field → Nat × Nat) (o : Object) :
    (ofElements pointerSize element o).stop pointerSize o =
      stopOf element o.ordered (maskOffset pointerSize + maskSize o.fields.length) := by
  suffices h : ∀ fs stop, (placed element fs stop).foldl (fun _ y => y.2.stop) stop =
      stopOf element fs stop from h o.ordered _
  intro fs
  induction fs with
  | nil => exact fun _ => rfl
  | cons f rest ih => exact fun stop => ih _

theorem structAlign_lt (h : maskOffset pointerSize < 2 ^ 63) :
    structAlign pointerSize < 2 ^ 63 := by
  have hmask := add_le_maskOffset pointerSize
  exact max_lt (by omega) (by decide)

/-- Whether elements are no smaller than their alignment and need no more than that of a struct. -/
structure IsBounded (pointerSize : Nat) (e : Nat × Nat) : Prop where
  align_le : e.2 ≤ structAlign pointerSize
  le_size : e.2 ≤ e.1

/-- The layout in words is the exact one, the size apart, as long as the last member ends within a
word. -/
theorem ofElements_word {element : Field → Nat × Nat} {o : Object}
    (h : ∀ f ∈ o.ordered, IsBounded pointerSize (element f))
    (hlt : (ofElements pointerSize element o).stop pointerSize o < 2 ^ 63) :
    Layout.ofElements (Layout.word pointerSize)
        (fun f => (Layout.word (element f).1, Layout.word (element f).2)) o =
      { (ofElements pointerSize element o).toWords pointerSize o with
        size := Layout.alignUp
          (Layout.word ((ofElements pointerSize element o).stop pointerSize o))
          (Layout.word (ofElements pointerSize element o).align) } := by
  rw [stop_ofElements] at hlt ⊢
  have hmask : maskOffset pointerSize < 2 ^ 63 :=
    ((Nat.le_add_right _ _).trans (le_stopOf o.ordered _)).trans_lt hlt
  have hpointer := (le_max_left _ _).trans_lt (structAlign_lt hmask)
  have hmax := max_word hpointer (show Atomic.identifier.size < 2 ^ 63 by decide)
  have hplaced := placed_word (fun f hf => (h f hf).le_size) (structAlign_lt hmask) hlt
  rw [structAlign] at hplaced
  simp only [Layout.ofElements, headerOf_word hmask]
  rw [show (header pointerSize o.fields.length).maskOffset +
    (header pointerSize o.fields.length).maskSize =
      Layout.word (maskOffset pointerSize + maskSize o.fields.length) from word_add _ _,
    show Layout.identifierSize = Layout.word Atomic.identifier.size from rfl, hmax, hplaced]
  rfl

/-- The members of all fields, that of the identifier first. -/
def Frame.allMembers (pointerSize : Nat) (o : Object) (x : Frame) : List (Field × Member) :=
  (o.identifier,
    { offset := identifierOffset pointerSize
      size := Atomic.identifier.size
      elementSize := Atomic.identifier.size }) :: x.members

theorem map_fst_allMembers (pointerSize : Nat) (element : Field → Nat × Nat) (o : Object) :
    ((ofElements pointerSize element o).allMembers pointerSize o).map Prod.fst = o.fields := by
  rw [Frame.allMembers, List.map_cons, Object.fields]
  exact congrArg (o.identifier :: ·) (map_fst_placed element o.ordered _)

theorem member_toWords {element : Field → Nat × Nat} {o : Object}
    (hnodup : (o.fields.map Field.name).Nodup) {y : Field × Member}
    (hy : y ∈ (ofElements pointerSize element o).allMembers pointerSize o) :
    ((ofElements pointerSize element o).toWords pointerSize o).member y.1.name = y.2.toWords := by
  have hmembers : ((ofElements pointerSize element o).toWords pointerSize o).members =
      ((ofElements pointerSize element o).allMembers pointerSize o).map
        fun y => (y.1.name, y.2.toWords) := rfl
  have hmem : (y.1.name, y.2.toWords) ∈
      ((ofElements pointerSize element o).toWords pointerSize o).members := by
    rw [hmembers]
    exact List.mem_map.mpr ⟨y, hy, rfl⟩
  have hkeys : (((ofElements pointerSize element o).toWords pointerSize o).members.map
      Prod.fst).Nodup := by
    rw [← map_fst_allMembers pointerSize element o, List.map_map] at hnodup
    rw [hmembers, List.map_map]
    exact hnodup
  rw [Layout.member, lookup_eq_some_of_mem hkeys hmem, Option.getD_some]

end Words

/-- The size and the alignment of a built-in type. -/
def atomicElement (type : Text) : Nat × Nat :=
  match Atomic.ofText? type with
  | some a => (a.size, a.align)
  | none => (0, 0)

/-- The size and the alignment of an element that is not an object. -/
def flatElement (m : Model) (f : Field) : Nat × Nat :=
  match f.category with
  | .string => (f.maxSize, 1)
  | .bytes => (alignUp (countSize + f.maxSize) countSize, countSize)
  | .enum => (enumSize, enumSize)
  | .bitmask =>
    let n := match m.bitmask? f.typeKey with
      | some b => b.storageSize
      | none => 1
    (n, n)
  | _ => atomicElement f.typeName

/-- The size and the alignment of an element, given the layouts of objects. -/
def elementOf (m : Model) (frameOf : Object → Frame) (f : Field) : Nat × Nat :=
  if f.category = .object then
    match m.object? f.typeKey with
    | some sub => ((frameOf sub).size, (frameOf sub).align)
    | none => (0, 0)
  else flatElement m f

theorem elementOf_object {m : Model} (frameOf : Object → Frame) {f : Field}
    (hc : f.category = .object) {sub : Object} (h : m.object? f.typeKey = some sub) :
    elementOf m frameOf f = ((frameOf sub).size, (frameOf sub).align) := by
  rw [elementOf, if_pos hc, h]

theorem elementOf_flat {m : Model} (frameOf : Object → Frame) {f : Field}
    (hc : f.category ≠ .object) : elementOf m frameOf f = flatElement m f := by
  rw [elementOf, if_neg hc]

/-- The layout of an object; `fuel` is no less than the depth of the objects inside each other. -/
def frame (m : Model) (pointerSize : Nat) : (fuel : Nat) → Object → Frame
  | 0, o => ofElements pointerSize (flatElement m) o
  | fuel + 1, o => ofElements pointerSize (elementOf m (frame m pointerSize fuel)) o

/-- The exact size of an object of a model. -/
def sizeOf (m : Model) (pointerSize : Nat) (o : Object) : Nat :=
  (frame m pointerSize m.allObjects.length o).size

/-- What the layout needs to know of a field: its type has a size and the alignment of a power of
two. -/
def Storable (m : Model) (f : Field) : Prop :=
  match f.category with
  | .string => 0 < f.maxSize
  | .bytes => True
  | .enum => True
  | .bitmask => ∃ b, m.bitmask? f.typeKey = some b ∧ b.storageSize ∣ 8
  | .object => ∃ sub, m.object? f.typeKey = some sub
  | _ => ∃ a, Atomic.ofText? f.typeName = some a

/-- Whether elements of a size and an alignment stay aligned one after the other. -/
structure IsElement (e : Nat × Nat) : Prop where
  align_dvd : e.2 ∣ 8
  dvd_size : e.2 ∣ e.1
  size_pos : 0 < e.1

theorem atomic_sound : ∀ a ∈ Atomic.all, a.align ∣ 8 ∧ a.align ∣ a.size ∧ 0 < a.size := by
  decide

theorem isElement_atomicElement {type : Text} (h : ∃ a, Atomic.ofText? type = some a) :
    IsElement (atomicElement type) := by
  obtain ⟨a, ha⟩ := h
  obtain ⟨hdvd, hsize, hpos⟩ := atomic_sound a (List.mem_of_find?_eq_some ha)
  rw [atomicElement, ha]
  exact ⟨hdvd, hsize, hpos⟩

theorem isElement_flatElement {m : Model} {f : Field} (h : Storable m f)
    (hc : f.category ≠ .object) : IsElement (flatElement m f) := by
  unfold Storable at h
  unfold flatElement
  cases hcat : f.category with
  | string =>
      rw [hcat] at h
      exact ⟨one_dvd _, one_dvd _, h⟩
  | bytes =>
      have hcount : countSize ∣ 8 := by decide
      have hle := le_alignUp (countSize + f.maxSize) countSize
      have hpos : 0 < countSize + f.maxSize := Nat.add_pos_left (by decide) _
      have hdvd := dvd_alignUp (countSize + f.maxSize) (show 0 < countSize by decide)
      exact ⟨hcount, hdvd, hpos.trans_le hle⟩
  | enum =>
      have henum : enumSize ∣ 8 := by decide
      exact ⟨henum, dvd_rfl, Nat.pos_of_dvd_of_pos henum (by omega)⟩
  | bitmask =>
      rw [hcat] at h
      obtain ⟨b, hb, hdvd⟩ := h
      simp only [hb]
      exact ⟨hdvd, dvd_rfl, Nat.pos_of_dvd_of_pos hdvd (by omega)⟩
  | object => exact absurd hcat hc
  | _ =>
      rw [hcat] at h
      exact isElement_atomicElement h

theorem atomicElement_word (type : Text) :
    (match Atomic.ofText? type with
      | some a => (Layout.word a.size, Layout.word a.align)
      | none => (0, 0)) =
      (Layout.word (atomicElement type).1, Layout.word (atomicElement type).2) := by
  unfold atomicElement
  cases Atomic.ofText? type with
  | some a => rfl
  | none => rfl

theorem flatElement_word {m : Model} {f : Field} (hc : f.category ≠ .object)
    (hlt : (flatElement m f).1 < 2 ^ 63) :
    Layout.flatElement m f =
      (Layout.word (flatElement m f).1, Layout.word (flatElement m f).2) := by
  unfold flatElement at hlt ⊢
  unfold Layout.flatElement
  cases hcat : f.category with
  | string => rfl
  | bytes =>
      have hle := le_alignUp (countSize + f.maxSize) countSize
      have hdvd : 2 ∣ alignUp (countSize + f.maxSize) countSize := dvd_alignUp _ (by decide)
      have hcountSize : countSize = 2 := rfl
      rw [hcat] at hlt
      simp only at hlt ⊢
      rw [← alignUp_word (by decide) (by omega), ← word_add]
      rfl
  | enum => rfl
  | bitmask =>
      cases m.bitmask? f.typeKey with
      | some b => rfl
      | none => rfl
  | object => exact absurd hcat hc
  | _ => exact atomicElement_word f.typeName

section Frames

/-- What the layout of an object is like: a positive number of eights. -/
structure IsFrame (x : Frame) : Prop where
  align_eq : x.align = 8
  dvd_size : 8 ∣ x.size
  size_pos : 0 < x.size

variable {m : Model} {rank : Object → Nat} {pointerSize fuel : Nat} {o : Object}

theorem start_le_stop (pointerSize : Nat) (element : Field → Nat × Nat) (o : Object) :
    maskOffset pointerSize + maskSize o.fields.length ≤
      (ofElements pointerSize element o).stop pointerSize o := by
  rw [stop_ofElements]
  exact le_stopOf o.ordered _

theorem size_ofElements (pointerSize : Nat) (element : Field → Nat × Nat) (o : Object) :
    (ofElements pointerSize element o).size =
      alignUp ((ofElements pointerSize element o).stop pointerSize o)
        (ofElements pointerSize element o).align := by
  rw [stop_ofElements]
  rfl

theorem size_ofElements_pos (pointerSize : Nat) (element : Field → Nat × Nat) (o : Object) :
    0 < (ofElements pointerSize element o).size := by
  have hstop := start_le_stop pointerSize element o
  have hmask : 8 ≤ maskOffset pointerSize := Nat.le_add_left _ _
  have hsize := le_alignUp ((ofElements pointerSize element o).stop pointerSize o)
    (ofElements pointerSize element o).align
  rw [size_ofElements]
  omega

theorem align_ofElements {element : Field → Nat × Nat}
    (h : ∀ f ∈ o.ordered, IsBounded pointerSize (element f)) :
    (ofElements pointerSize element o).align = structAlign pointerSize :=
  alignOf_eq fun f hf => (h f hf).align_le

theorem align_dvd_size {element : Field → Nat × Nat}
    (h : ∀ f ∈ o.ordered, IsBounded pointerSize (element f)) :
    structAlign pointerSize ∣ (ofElements pointerSize element o).size := by
  rw [size_ofElements, align_ofElements h]
  exact dvd_alignUp _ (lt_max_of_lt_right (by decide))

theorem IsElement.isBounded {e : Nat × Nat} (h : IsElement e) (pointerSize : Nat) :
    IsBounded pointerSize e := by
  have hle : e.2 ≤ 8 := Nat.le_of_dvd (by omega) h.align_dvd
  exact ⟨hle.trans (le_max_right _ _), Nat.le_of_dvd h.size_pos h.dvd_size⟩

theorem structAlign_eq_eight (hpointer : pointerSize ∣ 8) : structAlign pointerSize = 8 :=
  max_eq_right (Nat.le_of_dvd (by decide) hpointer)

theorem isFrame_ofElements (hpointer : pointerSize ∣ 8) {element : Field → Nat × Nat}
    (h : ∀ f ∈ o.ordered, IsElement (element f)) : IsFrame (ofElements pointerSize element o) := by
  have hbounded : ∀ f ∈ o.ordered, IsBounded pointerSize (element f) :=
    fun f hf => (h f hf).isBounded pointerSize
  refine ⟨?_, ?_, size_ofElements_pos pointerSize element o⟩
  · rw [align_ofElements hbounded, structAlign_eq_eight hpointer]
  · rw [← structAlign_eq_eight hpointer]
    exact align_dvd_size hbounded

theorem isElement_elementOf {frameOf : Object → Frame} {f : Field} (h : Storable m f)
    (hsub : f.category = .object → ∀ sub, m.object? f.typeKey = some sub → IsFrame (frameOf sub)) :
    IsElement (elementOf m frameOf f) := by
  by_cases hc : f.category = .object
  · simp only [Storable, hc] at h
    obtain ⟨sub, hfound⟩ := h
    have hframe := hsub hc sub hfound
    rw [elementOf_object frameOf hc hfound, hframe.align_eq]
    exact ⟨dvd_rfl, hframe.dvd_size, hframe.size_pos⟩
  · rw [elementOf_flat frameOf hc]
    exact isElement_flatElement h hc

theorem isFrame_frame (hrank : Layout.Ranked m rank) (hpointer : pointerSize ∣ 8)
    (hall : ∀ o ∈ m.allObjects, ∀ f ∈ o.ordered, Storable m f) (ho : o ∈ m.allObjects)
    (hf : rank o < fuel) : IsFrame (frame m pointerSize fuel o) := by
  induction fuel generalizing o with
  | zero => omega
  | succ fuel ih =>
      refine isFrame_ofElements hpointer fun f hmem => isElement_elementOf (hall o ho f hmem) ?_
      intro hc sub hsub
      have hlt := hrank o ho f hmem hc sub hsub
      exact ih (Layout.mem_of_object?_eq_some hsub).1 (by omega)

theorem isElement_frame (hrank : Layout.Ranked m rank) (hpointer : pointerSize ∣ 8)
    (hall : ∀ o ∈ m.allObjects, ∀ f ∈ o.ordered, Storable m f) (ho : o ∈ m.allObjects)
    (hf : rank o < fuel + 1) :
    ∀ f ∈ o.ordered, IsElement (elementOf m (frame m pointerSize fuel) f) := by
  intro f hmem
  refine isElement_elementOf (hall o ho f hmem) fun hc sub hsub => ?_
  have hlt := hrank o ho f hmem hc sub hsub
  exact isFrame_frame hrank hpointer hall (Layout.mem_of_object?_eq_some hsub).1 (by omega)

theorem exists_frame_eq (m : Model) (pointerSize fuel : Nat) (o : Object) :
    ∃ element, frame m pointerSize fuel o = ofElements pointerSize element o := by
  cases fuel with
  | zero => exact ⟨_, rfl⟩
  | succ fuel => exact ⟨_, rfl⟩

theorem size_frame (m : Model) (pointerSize fuel : Nat) (o : Object) :
    (frame m pointerSize fuel o).size =
      alignUp ((frame m pointerSize fuel o).stop pointerSize o)
        (frame m pointerSize fuel o).align := by
  obtain ⟨element, h⟩ := exists_frame_eq m pointerSize fuel o
  rw [h, size_ofElements]

theorem isBounded_elementOf {frameOf : Object → Frame} {f : Field} (h : Storable m f)
    (hsub : f.category = .object → ∀ sub, m.object? f.typeKey = some sub →
      IsBounded pointerSize ((frameOf sub).size, (frameOf sub).align)) :
    IsBounded pointerSize (elementOf m frameOf f) := by
  by_cases hc : f.category = .object
  · simp only [Storable, hc] at h
    obtain ⟨sub, hfound⟩ := h
    rw [elementOf_object frameOf hc hfound]
    exact hsub hc sub hfound
  · rw [elementOf_flat frameOf hc]
    exact (isElement_flatElement h hc).isBounded pointerSize

theorem isBounded_frame (hrank : Layout.Ranked m rank)
    (hall : ∀ o ∈ m.allObjects, ∀ f ∈ o.ordered, Storable m f) (ho : o ∈ m.allObjects)
    (hf : rank o < fuel + 1) :
    ∀ f ∈ o.ordered, IsBounded pointerSize (elementOf m (frame m pointerSize fuel) f) := by
  induction fuel generalizing o with
  | zero =>
      intro f hmem
      refine isBounded_elementOf (hall o ho f hmem) fun hc sub hsub => ?_
      have hlt := hrank o ho f hmem hc sub hsub
      omega
  | succ fuel ih =>
      intro f hmem
      refine isBounded_elementOf (hall o ho f hmem) fun hc sub hsub => ?_
      have hlt := hrank o ho f hmem hc sub hsub
      have hbounded := ih (Layout.mem_of_object?_eq_some hsub).1 (by omega)
      have halign := align_ofElements hbounded
      have hle := Nat.le_of_dvd (size_ofElements_pos _ _ _) (align_dvd_size hbounded)
      exact ⟨halign.le, halign.le.trans hle⟩

/-- Structs are aligned alike, whatever they hold. -/
theorem align_frame (hrank : Layout.Ranked m rank)
    (hall : ∀ o ∈ m.allObjects, ∀ f ∈ o.ordered, Storable m f) (ho : o ∈ m.allObjects)
    (hf : rank o < fuel) : (frame m pointerSize fuel o).align = structAlign pointerSize := by
  cases fuel with
  | zero => omega
  | succ fuel => exact align_ofElements (isBounded_frame hrank hall ho hf)

/-- The layout of an object in words is the exact one, the size apart, as long as its last member
ends within a word. -/
theorem plain_eq (hrank : Layout.Ranked m rank)
    (hall : ∀ o ∈ m.allObjects, ∀ f ∈ o.ordered, Storable m f) (ho : o ∈ m.allObjects)
    (hf : rank o < fuel) (hlt : (frame m pointerSize fuel o).stop pointerSize o < 2 ^ 63) :
    Layout.plain m (Layout.word pointerSize) fuel o =
      { (frame m pointerSize fuel o).toWords pointerSize o with
        size := Layout.alignUp
          (Layout.word ((frame m pointerSize fuel o).stop pointerSize o))
          (Layout.word (frame m pointerSize fuel o).align) } := by
  induction fuel generalizing o with
  | zero => omega
  | succ fuel ih =>
      rw [frame] at hlt ⊢
      rw [← ofElements_word (isBounded_frame hrank hall ho hf) hlt]
      rw [stop_ofElements] at hlt
      refine Layout.ofElements_congr fun f hmem => ?_
      -- The header alone is longer than an alignment, so the size of an element can be rounded up.
      have hroom := (element_le_stopOf hmem).trans_lt hlt
      have hmask := add_le_maskOffset pointerSize
      by_cases hc : f.category = .object
      · have hstorable := hall o ho f hmem
        simp only [Storable, hc] at hstorable
        obtain ⟨sub, hsub⟩ := hstorable
        have hless := hrank o ho f hmem hc sub hsub
        have hin := (Layout.mem_of_object?_eq_some hsub).1
        have halign : (frame m pointerSize fuel sub).align = structAlign pointerSize :=
          align_frame hrank hall hin (by omega)
        have hstop := le_alignUp ((frame m pointerSize fuel sub).stop pointerSize sub)
          (frame m pointerSize fuel sub).align
        rw [← size_frame] at hstop
        have hle : structAlign pointerSize ≤ maskOffset pointerSize :=
          max_le (by omega) (by omega)
        rw [elementOf_object _ hc hsub] at hroom ⊢
        simp only at hroom
        rw [Layout.elementOf_object _ hc hsub, ih hin (by omega) (by omega),
          alignUp_word (by omega) (by omega), ← size_frame]
        rfl
      · rw [elementOf_flat _ hc] at hroom ⊢
        rw [Layout.elementOf_flat _ hc, flatElement_word hc (by omega)]

/-- The layout of an object in words is the exact one if it fits. -/
theorem plain_eq_of_fits (hrank : Layout.Ranked m rank)
    (hall : ∀ o ∈ m.allObjects, ∀ f ∈ o.ordered, Storable m f) (ho : o ∈ m.allObjects)
    (hf : rank o < fuel) (hfits : (frame m pointerSize fuel o).Fits pointerSize o) :
    Layout.plain m (Layout.word pointerSize) fuel o =
      (frame m pointerSize fuel o).toWords pointerSize o := by
  have halign : 0 < (frame m pointerSize fuel o).align := by
    rw [align_frame hrank hall ho hf]
    exact lt_max_of_lt_right (by decide)
  have hstop : 0 < (frame m pointerSize fuel o).stop pointerSize o := by
    obtain ⟨element, h⟩ := exists_frame_eq m pointerSize fuel o
    have hstart := start_le_stop pointerSize element o
    have hmask := add_le_maskOffset pointerSize
    rw [h]
    omega
  unfold Frame.Fits at hfits
  rw [plain_eq hrank hall ho hf (by omega), alignUp_word (by omega) hfits, ← size_frame]
  rfl

theorem fits_iff_size_lt (hrank : Layout.Ranked m rank) (hpointer : pointerSize ∣ 8)
    (hall : ∀ o ∈ m.allObjects, ∀ f ∈ o.ordered, Storable m f) (ho : o ∈ m.allObjects)
    (hf : rank o < fuel) :
    (frame m pointerSize fuel o).Fits pointerSize o ↔
      (frame m pointerSize fuel o).size < 2 ^ 63 := by
  have hframe := isFrame_frame hrank hpointer hall ho hf
  have hdvd := hframe.dvd_size
  have hle := le_alignUp ((frame m pointerSize fuel o).stop pointerSize o) 8
  have hlt := alignUp_lt ((frame m pointerSize fuel o).stop pointerSize o) (show 0 < 8 by decide)
  rw [← hframe.align_eq, ← size_frame] at hle hlt
  rw [Frame.Fits]
  have halign := hframe.align_eq
  omega

/-- The layout of an object in words is the exact one as long as its size is a word. -/
theorem plain_eq_toWords (hrank : Layout.Ranked m rank) (hpointer : pointerSize ∣ 8)
    (hall : ∀ o ∈ m.allObjects, ∀ f ∈ o.ordered, Storable m f) (ho : o ∈ m.allObjects)
    (hf : rank o < fuel) (hlt : (frame m pointerSize fuel o).size < 2 ^ 63) :
    Layout.plain m (Layout.word pointerSize) fuel o =
      (frame m pointerSize fuel o).toWords pointerSize o :=
  plain_eq_of_fits hrank hall ho hf ((fits_iff_size_lt hrank hpointer hall ho hf).mpr hlt)

end Frames

end RecordSchema.Exact
