import RecordSchema.Proofs.Store.Within

/-!
# Directories that have been made

A file can be written to memory exactly if the directory that it lies in has been made by name,
whatever was made and written before and however the two paths are spelled. The directories above
are not made along with one, so that files of theirs are refused until they are made themselves.
-/

namespace RecordSchema

open Text

namespace Text

variable {sep : UInt8}

theorem join_concat (sep last : Text) {parts : List Text} (h : parts ≠ []) :
    join sep (parts ++ [last]) = join sep parts ++ sep ++ last := by
  induction parts with
  | nil => exact absurd rfl h
  | cons part rest ih =>
      cases rest with
      | nil => simp [join]
      | cons next more =>
          have hmore := ih (List.cons_ne_nil next more)
          simp only [join, List.cons_append, List.intersperse, List.flatten_cons,
            List.append_assoc] at hmore ⊢
          rw [hmore]

theorem cut?_append_cons {part : Text} (h : sep ∉ part) (t : Text) :
    cut? sep (part ++ sep :: t) = some (part, t) := by
  induction part with
  | nil => simp [cut?]
  | cons b rest ih =>
      obtain ⟨hb, hrest⟩ := List.ne_and_not_mem_of_not_mem_cons h
      rw [List.cons_append, cut?, if_neg (Ne.symm hb), ih hrest]
      rfl

theorem cut?_of_notMem {t : Text} (h : sep ∉ t) : cut? sep t = none := by
  induction t with
  | nil => rfl
  | cons b rest ih =>
      obtain ⟨hb, hrest⟩ := List.ne_and_not_mem_of_not_mem_cons h
      rw [cut?, if_neg (Ne.symm hb), ih hrest]
      rfl

theorem cutLast?_append_cons {last : Text} (h : sep ∉ last) (before : Text) :
    cutLast? sep (before ++ sep :: last) = some (before, last) := by
  have hreverse : (before ++ sep :: last).reverse = last.reverse ++ sep :: before.reverse := by simp
  rw [cutLast?, hreverse, cut?_append_cons (by simpa using h)]
  simp

theorem cutLast?_of_notMem {t : Text} (h : sep ∉ t) : cutLast? sep t = none := by
  rw [cutLast?, cut?_of_notMem (by simpa using h)]
  rfl

namespace Path

theorem clean_append_slash {p : Text} (h : p ≠ []) : clean (p ++ [slash]) = clean p := by
  have hrooted : isRooted (p ++ [slash]) = isRooted p := by
    cases p with
    | nil => exact absurd rfl h
    | cons b rest => rfl
  have hsplit : splitOn slash (p ++ [slash]) = splitOn slash p ++ [[]] := splitOn_append slash p []
  rw [clean, clean, components, components, hrooted, hsplit, List.foldl_append, List.foldl_cons,
    List.foldl_nil, push_of_skip (Or.inl rfl)]

theorem clean_ofComponents {rooted : Bool} {parts : List Text} (h : IsStack rooted parts.reverse) :
    clean (ofComponents rooted parts) = ofComponents rooted parts := by
  rw [clean, isRooted_ofComponents h, components_ofComponents h]

/-- A path of more than one component is the path of those before the last, a slash and the last. -/
theorem ofComponents_concat (rooted : Bool) {parts : List Text} (h : parts ≠ []) (name : Text) :
    ofComponents rooted (parts ++ [name]) = ofComponents rooted parts ++ slash :: name := by
  have hjoin : join [slash] (parts ++ [name]) = join [slash] parts ++ slash :: name := by
    rw [join_concat [slash] name h, List.append_assoc]
    rfl
  cases rooted with
  | true => simp [ofComponents, hjoin]
  | false => simp [ofComponents, hjoin, h]

/-- The directory of a clean path has all the components but the last. -/
theorem dir_ofComponents {rooted : Bool} {parts : List Text} {name : Text}
    (h : IsStack rooted (parts ++ [name]).reverse) :
    dir (ofComponents rooted (parts ++ [name])) = ofComponents rooted parts := by
  rw [List.reverse_concat] at h
  obtain ⟨_, _, hslash, _, hparts⟩ := h
  by_cases hnil : parts = []
  · subst hnil
    cases rooted with
    | true =>
        have hpath : ofComponents true ([] ++ [name]) = [] ++ slash :: name := by
          simp [ofComponents, join]
        have hroot : clean [slash] = ofComponents true [] := by decide
        rw [hpath, dir, cutLast?_append_cons hslash]
        exact hroot
    | false =>
        have hpath : ofComponents false ([] ++ [name]) = name := by simp [ofComponents, join]
        rw [hpath, dir, cutLast?_of_notMem hslash]
        decide
  · have hne : ofComponents rooted parts ≠ [] := by
      rw [← clean_ofComponents hparts]
      exact clean_ne_nil _
    rw [ofComponents_concat rooted hnil, dir, cutLast?_append_cons hslash]
    exact (clean_append_slash hne).trans (clean_ofComponents hparts)

end Path

end Text

namespace Disk

variable {directory above path other : Text}

/-- Whether a path is that of a file in a directory, however the two are spelled. -/
def LiesIn (directory path : Text) : Prop :=
  ∃ name, Path.IsPlain name ∧ placeOf path = placeOf directory ++ [name]

/-- Whether a directory is another one or lies below it, however the two are spelled. -/
def LeadsTo (above directory : Text) : Prop :=
  ∃ names : List Text, (∀ name ∈ names, Path.IsPlain name) ∧
    placeOf directory = placeOf above ++ names

theorem clean_eq_iff_placeOf_eq :
    Path.clean path = Path.clean other ↔ placeOf path = placeOf other := by
  refine ⟨fun h => ?_, clean_eq_of_placeOf_eq⟩
  rw [← placeOf_clean, h, placeOf_clean]

theorem exists_liesIn (directory : Text) : ∃ path, LiesIn directory path := by
  have hplain : Path.IsPlain "f" := by decide
  refine ⟨Path.joined [directory, "f"], "f", hplain, ?_⟩
  rw [placeOf_joined (Or.inr (by decide)), parts_of_notMem hplain.1 hplain.2.2.2, List.foldl_cons,
    List.foldl_nil, Place.step_of_isPlain hplain]

theorem LiesIn.dir_clean (h : LiesIn directory path) :
    Path.dir (Path.clean path) = Path.clean directory := by
  obtain ⟨name, hplain, hplace⟩ := h
  have hrooted : Path.isRooted path = Path.isRooted directory := by
    rw [Bool.eq_iff_iff, ← slash_mem_placeOf_iff, ← slash_mem_placeOf_iff, hplace, List.mem_append,
      List.mem_singleton, or_iff_left hplain.ne.2.symm]
  rw [placeOf, placeOf, hrooted, List.append_assoc] at hplace
  have hcomponents := List.append_cancel_left hplace
  have hstack := Path.isStack_components path
  rw [hcomponents] at hstack
  rw [Path.clean, hcomponents, Path.dir_ofComponents hstack, hrooted, Path.clean]

end Disk

namespace Shelf

/-- What is asked of output in memory. -/
inductive Request where
  | ensure (directory : Text)
  | write (path content : Text)

/-- A request, and whether it is canceled. -/
structure Call where
  canceled : Bool := false
  request : Request

/-- The answer to a call, nothing if it succeeds, and what it leaves. A canceled call changes
nothing. -/
def answer (s : Shelf) (c : Call) : Option OutputError × Shelf :=
  if c.canceled then (some .canceled, s)
  else
    match c.request with
    | .ensure directory => (none, s.ensure directory)
    | .write path content =>
      match s.write path content with
      | (.ok _, s) => (none, s)
      | (.error e, s) => (some e, s)

/-- What calls leave, one after another. -/
def answerAll (s : Shelf) (calls : List Call) : Shelf := calls.foldl (fun s c => (s.answer c).2) s

/-- The directories that calls make. -/
def made (calls : List Call) : List Text :=
  calls.filterMap fun c =>
    match c with
    | ⟨false, .ensure directory⟩ => some directory
    | _ => none

/-- Whether a file can be written, whatever its content. -/
def Accepts (s : Shelf) (path : Text) : Prop :=
  ∀ content, (s.answer ⟨false, .write path content⟩).1 = none

variable {s : Shelf} {path directory : Text} {calls : List Call}

theorem accepts_iff_hasDirectory : s.Accepts path ↔ s.HasDirectory path := by
  unfold Accepts answer
  simp only [Bool.false_eq_true, if_false]
  constructor
  · intro h
    have hnone := h []
    have hwrites := s.writes_write path []
    generalize s.write path [] = result at hwrites hnone
    cases hwrites with
    | refused e => cases hnone
    | unchanged hdirectory _ => exact hdirectory
    | set hdirectory => exact hdirectory
  · intro h content
    unfold HasDirectory at h
    simp only [write, if_pos h]
    split_ifs <;> rfl

theorem directories_write (s : Shelf) (path content : Text) :
    (s.write path content).2.directories = s.directories := by
  have hwrites := s.writes_write path content
  generalize s.write path content = result at hwrites
  cases hwrites with
  | refused e => rfl
  | unchanged _ _ => rfl
  | set _ => rfl

theorem directories_answer (s : Shelf) (c : Call) :
    (s.answer c).2.directories = (made [c]).map Path.clean ++ s.directories := by
  obtain ⟨canceled, request⟩ := c
  cases canceled with
  | true => rfl
  | false =>
      cases request with
      | ensure directory => rfl
      | write path content =>
          have hkept := s.directories_write path content
          unfold answer
          simp only [Bool.false_eq_true, if_false]
          generalize s.write path content = result at hkept
          obtain ⟨e | written, s'⟩ := result
          · exact hkept
          · exact hkept

/-- The directories after calls are those from before and those that the calls have made. -/
theorem mem_directories_answerAll {cleaned : Text} : cleaned ∈ (s.answerAll calls).directories ↔
    cleaned ∈ s.directories ∨ ∃ directory ∈ made calls, Path.clean directory = cleaned := by
  induction calls generalizing s with
  | nil => simp [answerAll, made]
  | cons c rest ih =>
      have hmade : made (c :: rest) = made [c] ++ made rest := by
        rw [made, made, made, ← List.filterMap_append]
        rfl
      change cleaned ∈ ((s.answer c).2.answerAll rest).directories ↔ _
      rw [ih, directories_answer, hmade, List.mem_append, List.mem_map]
      simp only [List.mem_append, or_and_right, exists_or]
      rw [or_assoc, or_left_comm]

/-- After any calls on empty memory a file is accepted exactly if the directory that it lies in is
one of those that were made. -/
theorem accepts_answerAll_iff (calls : List Call) (h : Disk.LiesIn directory path) :
    (answerAll {} calls).Accepts path ↔
      ∃ other ∈ made calls, Disk.placeOf other = Disk.placeOf directory := by
  have hempty : ∀ cleaned, cleaned ∉ ({} : Shelf).directories := fun _ => List.not_mem_nil
  rw [accepts_iff_hasDirectory, HasDirectory, List.contains_iff_mem, h.dir_clean,
    mem_directories_answerAll, or_iff_right (hempty _)]
  simp only [Disk.clean_eq_iff_placeOf_eq]

/-- Whether files are accepted in given directories and in all directories above them. -/
def Honours (s : Shelf) (directories : List Text) : Prop :=
  ∀ directory ∈ directories, ∀ above path, Disk.LeadsTo above directory → Disk.LiesIn above path →
    s.Accepts path

/-- Whether directories come with all directories above them. -/
def IsClosed (directories : List Text) : Prop :=
  ∀ directory ∈ directories, ∀ above, Disk.LeadsTo above directory →
    ∃ other ∈ directories, Disk.placeOf other = Disk.placeOf above

/-- A directory that has been made takes files from then on, under any spelling and whatever else
is made, written or canceled; and so do exactly the directories that were made, so that the
directories above them take files, too, only if they have all been made themselves. -/
theorem honours_iff_isClosed (calls : List Call) :
    (∀ directory path, Disk.LiesIn directory path →
        ((answerAll {} calls).Accepts path ↔
          ∃ other ∈ made calls, Disk.placeOf other = Disk.placeOf directory)) ∧
      ((answerAll {} calls).Honours (made calls) ↔ IsClosed (made calls)) := by
  refine ⟨fun directory path => accepts_answerAll_iff calls, ?_, ?_⟩
  · intro h directory hmade above hleads
    obtain ⟨path, hpath⟩ := Disk.exists_liesIn above
    exact (accepts_answerAll_iff calls hpath).mp (h directory hmade above path hleads hpath)
  · intro h directory hmade above path hleads hpath
    exact (accepts_answerAll_iff calls hpath).mpr (h directory hmade above hleads)

/-- A directory in another one is made between two attempts to write a file to it. -/
def shopCalls : List Call :=
  [⟨false, .write "out/shop/a.json" "1"⟩, ⟨false, .ensure "out//shop"⟩, ⟨true, .ensure "out"⟩,
    ⟨false, .write "out/shop/a.json" "1"⟩]

theorem honours_iff_isClosed_shop :
    Disk.LeadsTo "./out" "out//shop" ∧ Disk.LiesIn "./out" "out/index.json" ∧
      (answerAll {} shopCalls).Accepts "out/x/../shop/b.json" ∧
      ¬ (answerAll {} shopCalls).Accepts "out/index.json" ∧
      ¬ (answerAll {} shopCalls).Honours (made shopCalls) := by
  obtain ⟨haccepts, hhonours⟩ := honours_iff_isClosed shopCalls
  have hleads : Disk.LeadsTo "./out" "out//shop" := ⟨["shop"], by decide, by decide⟩
  have hindex : Disk.LiesIn "./out" "out/index.json" := ⟨"index.json", by decide, by decide⟩
  have hshop : Disk.LiesIn "out/shop" "out/x/../shop/b.json" := ⟨"b.json", by decide, by decide⟩
  have hout : ¬ ∃ other ∈ made shopCalls, Disk.placeOf other = Disk.placeOf "./out" := by decide
  refine ⟨hleads, hindex, ?_, ?_, ?_⟩
  · exact (haccepts _ _ hshop).mpr (by decide)
  · exact fun h => hout ((haccepts _ _ hindex).mp h)
  · intro h
    exact hout (hhonours.mp h "out//shop" (by decide) "./out" hleads)

end Shelf

end RecordSchema
