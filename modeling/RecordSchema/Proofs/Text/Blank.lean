import RecordSchema.Proofs.Text.Glyph
import RecordSchema.Text.Blank
import Mathlib.Data.List.TakeWhile

/-!
# White space around and between words

Trimming and cutting into words are said here without glyphs: a text is trimmed by leaving out
encoded white space characters in front and at the end, and its words are what stands between such
characters. Both say exactly one thing about every text, whether it is valid or not.
-/

namespace RecordSchema.Text

/-- Whether a text consists of white space characters. -/
def IsBlank (t : Text) : Prop := ∃ cs : List Char, (∀ c ∈ cs, isBlankChar c = true) ∧ t = ofChars cs

/-- Whether white space stands at neither end of a text. -/
structure IsTrimmed (t : Text) : Prop where
  not_front : ∀ c, isBlankChar c = true → ¬ ofChar c <+: t
  not_back : ∀ c, isBlankChar c = true → ¬ ofChar c <:+ t

/-- Whether a text is another one without the white space at its ends. -/
structure Trims (t core : Text) : Prop where
  isTrimmed : IsTrimmed core
  exists_blank : ∃ before after, IsBlank before ∧ IsBlank after ∧ t = before ++ core ++ after

/-- Whether a text is a word: there is no white space in it. -/
structure IsWord (w : Text) : Prop where
  ne_nil : w ≠ []
  not_inside : ∀ c, isBlankChar c = true → ¬ ofChar c <:+: w

/-- Whether a text consists of words with white space around and between them. -/
inductive IsSpaced : List Text → Text → Prop where
  | nil {gap : Text} (hgap : IsBlank gap) : IsSpaced [] gap
  | cons {gap w rest : Text} {ws : List Text} (hgap : IsBlank gap) (hw : IsWord w)
      (hrest : IsSpaced ws rest) (hsep : ws ≠ [] → ∃ c, isBlankChar c = true ∧ ofChar c <+: rest) :
      IsSpaced (w :: ws) (gap ++ w ++ rest)

section Characters

variable {t : Text} {c : Char}

theorem isDetached_nil : IsDetached [] := by
  intro b hb
  cases hb

theorem glyphs_ofChars_append (cs : List Char) (t : Text) :
    glyphs (ofChars cs ++ t) = cs.map Glyph.char ++ glyphs t := by
  induction cs with
  | nil => rfl
  | cons c cs ih =>
      rw [ofChars, List.flatMap_cons, List.append_assoc, glyphs_ofChar_append]
      exact congrArg (Glyph.char c :: ·) ih

theorem glyphs_ofChars (cs : List Char) : glyphs (ofChars cs) = cs.map Glyph.char := by
  have hnil : glyphs [] = [] := rfl
  rw [← List.append_nil (ofChars cs), glyphs_ofChars_append, hnil, List.append_nil]

theorem ofGlyphs_char (cs : List Char) : ofGlyphs (cs.map Glyph.char) = ofChars cs := by
  rw [ofGlyphs, List.flatMap_map]
  rfl

theorem front_iff : ofChar c <+: t ↔ (glyphs t).head? = some (.char c) := by
  constructor
  · rintro ⟨rest, rfl⟩
    rw [glyphs_ofChar_append]
    rfl
  · intro h
    obtain ⟨gs, hgs⟩ := List.head?_eq_some_iff.mp h
    obtain ⟨rest, rfl, _⟩ := exists_of_glyphs_eq_cons hgs
    exact List.prefix_append _ _

theorem glyphs_append_ofChar (t : Text) (c : Char) :
    glyphs (t ++ ofChar c) = glyphs t ++ [.char c] := by
  have hdetached := isDetached_ofChar_append c []
  have hone := glyphs_ofChar_append c []
  rw [List.append_nil] at hdetached hone
  rw [glyphs_append hdetached, hone]
  rfl

theorem back_iff : ofChar c <:+ t ↔ (glyphs t).getLast? = some (.char c) := by
  constructor
  · rintro ⟨before, rfl⟩
    rw [glyphs_append_ofChar]
    simp
  · intro h
    obtain ⟨gs, hgs⟩ := List.getLast?_eq_some_iff.mp h
    refine ⟨ofGlyphs gs, ?_⟩
    rw [← ofGlyphs_glyphs t, hgs]
    simp [ofGlyphs, Glyph.bytes]

theorem inside_iff : ofChar c <:+: t ↔ Glyph.char c ∈ glyphs t := by
  constructor
  · rintro ⟨before, after, rfl⟩
    rw [List.append_assoc, glyphs_append (isDetached_ofChar_append c after), glyphs_ofChar_append]
    simp
  · intro h
    obtain ⟨gs, gs', hgs⟩ := List.append_of_mem h
    refine ⟨ofGlyphs gs, ofGlyphs gs', ?_⟩
    rw [← ofGlyphs_glyphs t, hgs]
    simp [ofGlyphs, Glyph.bytes]

end Characters

section Blank

variable {t : Text} {g : Glyph} {gs : List Glyph}

theorem isBlank_glyph_iff : g.isBlank = true ↔ ∃ c, isBlankChar c = true ∧ g = .char c := by
  cases g with
  | char c => simp [Glyph.isBlank]
  | stray b => simp [Glyph.isBlank]

theorem exists_chars_of_isBlank (h : ∀ g ∈ gs, g.isBlank = true) :
    ∃ cs : List Char, (∀ c ∈ cs, isBlankChar c = true) ∧ gs = cs.map Glyph.char := by
  induction gs with
  | nil => exact ⟨[], by simp, rfl⟩
  | cons g gs ih =>
      obtain ⟨hg, hgs⟩ := List.forall_mem_cons.mp h
      obtain ⟨c, hc, rfl⟩ := isBlank_glyph_iff.mp hg
      obtain ⟨cs, hcs, rfl⟩ := ih hgs
      exact ⟨c :: cs, List.forall_mem_cons.mpr ⟨hc, hcs⟩, rfl⟩

theorem isBlank_of_forall_glyphs (h : ∀ g ∈ glyphs t, g.isBlank = true) : IsBlank t := by
  obtain ⟨cs, hcs, hgs⟩ := exists_chars_of_isBlank h
  refine ⟨cs, hcs, ?_⟩
  rw [← ofGlyphs_glyphs t, hgs, ofGlyphs_char]

theorem IsBlank.glyphs_append (h : IsBlank t) (rest : Text) :
    glyphs (t ++ rest) = glyphs t ++ glyphs rest := by
  obtain ⟨cs, _, rfl⟩ := h
  rw [glyphs_ofChars_append, glyphs_ofChars]

theorem IsBlank.forall_glyphs (h : IsBlank t) : ∀ g ∈ glyphs t, g.isBlank = true := by
  obtain ⟨cs, hcs, rfl⟩ := h
  rw [glyphs_ofChars]
  intro g hg
  obtain ⟨c, hc, rfl⟩ := List.mem_map.mp hg
  exact hcs c hc

theorem isDetached_of_head? (h : ∀ g ∈ (glyphs t).head?, g.isBlank = true) : IsDetached t := by
  cases hgs : glyphs t with
  | nil =>
      rw [glyphs_eq_nil_iff.mp hgs]
      exact isDetached_nil
  | cons g gs =>
      rw [hgs] at h
      obtain ⟨c, _, rfl⟩ := isBlank_glyph_iff.mp (h g rfl)
      obtain ⟨rest, rfl, _⟩ := exists_of_glyphs_eq_cons hgs
      exact isDetached_ofChar_append c rest

theorem IsBlank.isDetached (h : IsBlank t) : IsDetached t :=
  isDetached_of_head? fun g hg => h.forall_glyphs g (List.mem_of_head? hg)

theorem isBlank_nil : IsBlank [] := ⟨[], by simp, rfl⟩

theorem IsBlank.append {t' : Text} (h : IsBlank t) (h' : IsBlank t') : IsBlank (t ++ t') := by
  obtain ⟨cs, hcs, rfl⟩ := h
  obtain ⟨cs', hcs', rfl⟩ := h'
  refine ⟨cs ++ cs', fun c hc => (List.mem_append.mp hc).elim (hcs c) (hcs' c), ?_⟩
  simp [ofChars]

theorem IsBlank.eq_nil_or (h : IsBlank t) :
    t = [] ∨ ∃ c, isBlankChar c = true ∧ ofChar c <+: t := by
  obtain ⟨cs, hcs, rfl⟩ := h
  cases cs with
  | nil => exact .inl rfl
  | cons c cs => exact .inr ⟨c, hcs c (by simp), by simp [ofChars]⟩

theorem isTrimmed_iff : IsTrimmed t ↔
    (∀ g ∈ (glyphs t).head?, g.isBlank = false) ∧ ∀ g ∈ (glyphs t).getLast?, g.isBlank = false := by
  constructor
  · intro h
    refine ⟨fun g hg => ?_, fun g hg => ?_⟩
    · refine Bool.eq_false_iff.mpr fun hblank => ?_
      obtain ⟨c, hc, rfl⟩ := isBlank_glyph_iff.mp hblank
      exact h.not_front c hc (front_iff.mpr hg)
    · refine Bool.eq_false_iff.mpr fun hblank => ?_
      obtain ⟨c, hc, rfl⟩ := isBlank_glyph_iff.mp hblank
      exact h.not_back c hc (back_iff.mpr hg)
  · rintro ⟨hhead, hlast⟩
    refine ⟨fun c hc hfront => ?_, fun c hc hback => ?_⟩
    · exact Bool.eq_false_iff.mp (hhead _ (front_iff.mp hfront)) hc
    · exact Bool.eq_false_iff.mp (hlast _ (back_iff.mp hback)) hc

theorem forall_glyphs_iff : (∀ g ∈ glyphs t, g.isBlank = false) ↔
    ∀ c, isBlankChar c = true → ¬ ofChar c <:+: t := by
  constructor
  · intro h c hc hinside
    exact Bool.eq_false_iff.mp (h _ (inside_iff.mp hinside)) hc
  · intro h g hg
    refine Bool.eq_false_iff.mpr fun hblank => ?_
    obtain ⟨c, hc, rfl⟩ := isBlank_glyph_iff.mp hblank
    exact h c hc (inside_iff.mpr hg)

end Blank

namespace Glyph

variable {before core after w rest gs : List Glyph} {g : Glyph}

theorem dropWhile_append (hbefore : ∀ g ∈ before, g.isBlank = true)
    (hcore : ∀ g ∈ core.head?, g.isBlank = false) : (before ++ core).dropWhile isBlank = core := by
  induction before with
  | nil =>
      cases core with
      | nil => rfl
      | cons g gs => exact List.dropWhile_cons_of_neg (Bool.eq_false_iff.mp (hcore g rfl))
  | cons g before ih =>
      obtain ⟨hg, hrest⟩ := List.forall_mem_cons.mp hbefore
      rw [List.cons_append, List.dropWhile_cons_of_pos hg, ih hrest]

theorem isBlank_head?_dropWhile (gs : List Glyph) :
    ∀ g ∈ (gs.dropWhile isBlank).head?, g.isBlank = false := by
  intro g hg
  have hnot := List.head?_dropWhile_not isBlank gs
  rw [Option.mem_def.mp hg] at hnot
  exact hnot

theorem trim_append (hbefore : ∀ g ∈ before, g.isBlank = true)
    (hafter : ∀ g ∈ after, g.isBlank = true) (hhead : ∀ g ∈ core.head?, g.isBlank = false)
    (hlast : ∀ g ∈ core.getLast?, g.isBlank = false) : trim (before ++ core ++ after) = core := by
  cases core with
  | nil =>
      have hall : ∀ g ∈ before ++ after, g.isBlank = true := fun g hg =>
        (List.mem_append.mp hg).elim (hbefore g) (hafter g)
      have hdrop : (before ++ after ++ []).dropWhile isBlank = [] := dropWhile_append hall (by simp)
      rw [List.append_nil] at hdrop
      rw [trim, List.append_nil, hdrop]
      rfl
  | cons g core =>
      have hdrop : (before ++ (g :: core ++ after)).dropWhile isBlank = g :: core ++ after :=
        dropWhile_append hbefore (fun g' hg' => hhead g' hg')
      have hback : ((g :: core ++ after).reverse).dropWhile isBlank = (g :: core).reverse := by
        rw [List.reverse_append]
        refine dropWhile_append (fun g' hg' => hafter g' (List.mem_reverse.mp hg')) fun g' hg' => ?_
        rw [List.head?_reverse] at hg'
        exact hlast g' hg'
      rw [trim, List.append_assoc, hdrop, hback, List.reverse_reverse]

theorem exists_trim (gs : List Glyph) :
    ∃ before after, (∀ g ∈ before, g.isBlank = true) ∧ (∀ g ∈ after, g.isBlank = true) ∧
      gs = before ++ trim gs ++ after ∧ (∀ g ∈ (trim gs).head?, g.isBlank = false) ∧
      ∀ g ∈ (trim gs).getLast?, g.isBlank = false := by
  have hfront := List.takeWhile_append_dropWhile (p := isBlank) (l := gs)
  have hhead := isBlank_head?_dropWhile gs
  generalize hd : gs.dropWhile isBlank = d at hfront hhead
  have hback : d = trim gs ++ (d.reverse.takeWhile isBlank).reverse := by
    rw [trim, hd, ← List.reverse_append, List.takeWhile_append_dropWhile, List.reverse_reverse]
  refine ⟨gs.takeWhile isBlank, (d.reverse.takeWhile isBlank).reverse, fun g hg => ?_,
    fun g hg => ?_, ?_, fun g hg => ?_, fun g hg => ?_⟩
  · exact List.mem_takeWhile_imp hg
  · exact List.mem_takeWhile_imp (List.mem_reverse.mp hg)
  · rw [List.append_assoc, ← hback, hfront]
  · apply hhead g
    rw [hback, List.head?_append, Option.mem_def.mp hg]
    rfl
  · rw [trim, hd, List.getLast?_reverse] at hg
    exact isBlank_head?_dropWhile _ g hg

theorem words_append_of_isBlank (hbefore : ∀ g ∈ before, g.isBlank = true) :
    words (before ++ rest) = words rest := by
  induction before with
  | nil => rfl
  | cons g before ih =>
      obtain ⟨hg, hrest⟩ := List.forall_mem_cons.mp hbefore
      simp [words, hg, ih hrest]

/-- A run without white space is one word, up to the end or the next white space. -/
theorem words_append (hne : w ≠ []) (hw : ∀ g ∈ w, g.isBlank = false)
    (hrest : ∀ g ∈ rest.head?, g.isBlank = true) : words (w ++ rest) = w :: words rest := by
  induction w with
  | nil => exact absurd rfl hne
  | cons g w ih =>
      obtain ⟨hg, hmore⟩ := List.forall_mem_cons.mp hw
      cases w with
      | nil =>
          cases rest with
          | nil => simp [words, hg]
          | cons next rest => simp [words, hg, hrest next rfl]
      | cons next w =>
          have hnext : next.isBlank = false := hmore next (by simp)
          have ih := ih (by simp) hmore
          rw [List.cons_append] at ih
          rw [List.cons_append, List.cons_append, words, hg, hnext, ih]
          rfl

end Glyph

variable {t core : Text} {ws : List Text}

/-- Trimming leaves out the white space at the ends, and only that. -/
theorem trim_eq_iff : trim t = core ↔ Trims t core := by
  constructor
  · rintro rfl
    obtain ⟨gs, gs', hbefore, hafter, hgs, hhead, hlast⟩ := Glyph.exists_trim (glyphs t)
    obtain ⟨front, after, ht, hfront, rfl⟩ := exists_append_of_glyphs hgs
    obtain ⟨before, core, rfl, rfl, hcore⟩ := exists_append_of_glyphs hfront
    rw [trim, ← hcore, ofGlyphs_glyphs]
    rw [← hcore] at hhead hlast
    exact ⟨isTrimmed_iff.mpr ⟨hhead, hlast⟩, before, after, isBlank_of_forall_glyphs hbefore,
      isBlank_of_forall_glyphs hafter, ht⟩
  · rintro ⟨hcore, before, after, hbefore, hafter, rfl⟩
    obtain ⟨hhead, hlast⟩ := isTrimmed_iff.mp hcore
    have hgs : glyphs (before ++ core ++ after) = glyphs before ++ glyphs core ++ glyphs after := by
      rw [glyphs_append hafter.isDetached, hbefore.glyphs_append]
    rw [trim, hgs, Glyph.trim_append hbefore.forall_glyphs hafter.forall_glyphs hhead hlast,
      ofGlyphs_glyphs]

theorem IsSpaced.head?_glyphs (h : IsSpaced ws t)
    (hsep : ws ≠ [] → ∃ c, isBlankChar c = true ∧ ofChar c <+: t) :
    ∀ g ∈ (glyphs t).head?, g.isBlank = true := by
  intro g hg
  cases ws with
  | nil =>
      cases h with
      | nil hgap => exact hgap.forall_glyphs g (List.mem_of_head? hg)
  | cons w ws =>
      obtain ⟨c, hc, hfront⟩ := hsep (by simp)
      rw [front_iff.mp hfront] at hg
      cases hg
      exact hc

theorem words_of_isSpaced (h : IsSpaced ws t) : words t = ws := by
  induction h with
  | @nil gap hgap =>
      have hwords : Glyph.words (glyphs gap ++ []) = Glyph.words [] :=
        Glyph.words_append_of_isBlank hgap.forall_glyphs
      rw [List.append_nil] at hwords
      rw [words, hwords]
      rfl
  | @cons gap w rest ws hgap hw hrest hsep ih =>
      have hhead := hrest.head?_glyphs hsep
      have hgs : glyphs (gap ++ w ++ rest) = glyphs gap ++ (glyphs w ++ glyphs rest) := by
        rw [glyphs_append (isDetached_of_head? hhead), hgap.glyphs_append, List.append_assoc]
      have hne : glyphs w ≠ [] := fun hnil => hw.ne_nil (glyphs_eq_nil_iff.mp hnil)
      rw [words, hgs, Glyph.words_append_of_isBlank hgap.forall_glyphs,
        Glyph.words_append hne (forall_glyphs_iff.mpr hw.not_inside) hhead, List.map_cons,
        ofGlyphs_glyphs]
      exact congrArg (w :: ·) ih

/-- Every text is white space or starts with a word, after white space. -/
theorem exists_word (t : Text) :
    IsBlank t ∨ ∃ gap w rest, IsBlank gap ∧ IsWord w ∧ t = gap ++ w ++ rest ∧
      ∀ g ∈ (glyphs rest).head?, g.isBlank = true := by
  obtain ⟨gap, after, rfl, hgap, hafter⟩ := exists_append_of_glyphs
    (List.takeWhile_append_dropWhile (p := Glyph.isBlank) (l := glyphs t)).symm
  have hblank : IsBlank gap := by
    refine isBlank_of_forall_glyphs fun g hg => ?_
    rw [hgap] at hg
    exact List.mem_takeWhile_imp hg
  have hhead := Glyph.isBlank_head?_dropWhile (glyphs (gap ++ after))
  rw [← hafter] at hhead
  obtain ⟨w, rest, rfl, hw, hrest⟩ := exists_append_of_glyphs
    (List.takeWhile_append_dropWhile (p := fun g => !g.isBlank) (l := glyphs after)).symm
  by_cases hnil : w = []
  · -- The rest starts with no word and with no white space, so there is none.
    subst hnil
    cases hgs : glyphs rest with
    | nil =>
        rw [glyphs_eq_nil_iff.mp hgs]
        exact .inl (by simpa using hblank)
    | cons g gs =>
        rw [List.nil_append, hgs] at hhead hw
        rw [List.takeWhile_cons_of_pos (by simp [hhead g rfl])] at hw
        cases hw
  · refine .inr ⟨gap, w, rest, hblank, ⟨hnil, forall_glyphs_iff.mp fun g hg => ?_⟩,
      (List.append_assoc _ _ _).symm, fun g hg => ?_⟩
    · rw [hw] at hg
      simpa using List.mem_takeWhile_imp hg
    · have hnot := List.head?_dropWhile_not (fun g : Glyph => !g.isBlank) (glyphs (w ++ rest))
      rw [← hrest, Option.mem_def.mp hg] at hnot
      simpa using hnot

theorem isSpaced_words (t : Text) : IsSpaced (words t) t := by
  induction hlength : t.length using Nat.strongRecOn generalizing t with
  | ind n ih =>
      rcases exists_word t with hblank | ⟨gap, w, rest, hgap, hw, rfl, hhead⟩
      · rw [words_of_isSpaced (.nil hblank)]
        exact .nil hblank
      · have hlt : rest.length < n := by
          have hpos := List.length_pos_iff.mpr hw.ne_nil
          simp only [List.length_append] at hlength
          omega
        have hrest := ih rest.length hlt rest rfl
        have hsep : words rest ≠ [] → ∃ c, isBlankChar c = true ∧ ofChar c <+: rest := by
          intro hne
          cases hgs : glyphs rest with
          | nil =>
              rw [words, hgs] at hne
              exact absurd rfl hne
          | cons g gs =>
              rw [hgs] at hhead
              obtain ⟨c, hc, rfl⟩ := isBlank_glyph_iff.mp (hhead g rfl)
              exact ⟨c, hc, front_iff.mpr (by rw [hgs]; rfl)⟩
        have hspaced : IsSpaced (w :: words rest) (gap ++ w ++ rest) := .cons hgap hw hrest hsep
        rw [words_of_isSpaced hspaced]
        exact hspaced

/-- The words of a text are what stands between its white space, and nothing else is. -/
theorem words_eq_iff : words t = ws ↔ IsSpaced ws t := by
  constructor
  · rintro rfl
    exact isSpaced_words t
  · exact words_of_isSpaced

theorem Trims.of_isTrimmed (h : IsTrimmed t) : Trims t t :=
  ⟨h, [], [], isBlank_nil, isBlank_nil, by simp⟩

theorem trims_nil_iff : Trims t [] ↔ IsBlank t := by
  constructor
  · rintro ⟨_, before, after, hbefore, hafter, rfl⟩
    rw [List.append_nil]
    exact hbefore.append hafter
  · intro h
    have hnil : IsTrimmed [] := isTrimmed_iff.mpr (by simp [glyphs, glyphsAfter])
    exact ⟨hnil, t, [], h, isBlank_nil, by simp⟩

section Visible

variable {b : UInt8} {c : Char}

/-- The visible bytes of ASCII; white space has none of them. -/
def isVisible (b : UInt8) : Bool := 33 ≤ b && b ≤ 126

theorem ofChar_ne_nil (c : Char) : ofChar c ≠ [] := by
  obtain ⟨b, more, hbytes, _⟩ := exists_ofChar_eq c
  simp [hbytes]

theorem toNat_of_mem_ofChar (h : b ∈ ofChar c) : b.toNat = c.toNat ∨ 128 ≤ b.toNat := by
  have hencodes := encodes_ofChar c
  generalize ofChar c = t at h hencodes
  cases hencodes with
  | one hb hv => simp_all
  | two hb h1 hv =>
      rw [isTail_iff] at h1
      simp only [List.mem_cons, List.not_mem_nil, or_false] at h
      rcases h with rfl | rfl <;> omega
  | three hb h1 h2 hshortest hscalar hv =>
      rw [isTail_iff] at h1 h2
      simp only [List.mem_cons, List.not_mem_nil, or_false] at h
      rcases h with rfl | rfl | rfl <;> omega
  | four hb h1 h2 h3 hshortest hscalar hv =>
      rw [isTail_iff] at h1 h2 h3
      simp only [List.mem_cons, List.not_mem_nil, or_false] at h
      rcases h with rfl | rfl | rfl | rfl <;> omega

theorem isVisible_of_mem_ofChar (hc : isBlankChar c = true) (h : b ∈ ofChar c) :
    isVisible b = false := by
  simp only [isVisible, isBlankChar, Bool.and_eq_false_iff, Bool.or_eq_true, Bool.and_eq_true,
    decide_eq_true_eq, decide_eq_false_iff_not, beq_iff_eq, UInt8.le_iff_toNat_le,
    UInt8.reduceToNat] at hc ⊢
  have hbyte := toNat_of_mem_ofChar h
  omega

theorem IsBlank.isVisible (h : IsBlank t) (hb : b ∈ t) : isVisible b = false := by
  obtain ⟨cs, hcs, rfl⟩ := h
  obtain ⟨c, hc, hmem⟩ := List.mem_flatMap.mp hb
  exact isVisible_of_mem_ofChar (hcs c hc) hmem

theorem Trims.mem_iff (h : Trims t core) (hb : Text.isVisible b = true) : b ∈ t ↔ b ∈ core := by
  obtain ⟨_, before, after, hbefore, hafter, rfl⟩ := h
  have hnot : ∀ gap, IsBlank gap → b ∉ gap := by
    intro gap hgap hmem
    rw [hgap.isVisible hmem] at hb
    cases hb
  simp [hnot before hbefore, hnot after hafter]

theorem isTrimmed_of_isVisible (hhead : ∀ b ∈ t.head?, isVisible b = true)
    (hlast : ∀ b ∈ t.getLast?, isVisible b = true) : IsTrimmed t := by
  refine ⟨fun c hc => ?_, fun c hc => ?_⟩
  · rintro ⟨rest, rfl⟩
    have hne := ofChar_ne_nil c
    have hblank := isVisible_of_mem_ofChar hc (List.head_mem hne)
    have hfirst : (ofChar c ++ rest).head? = some ((ofChar c).head hne) := by
      rw [List.head?_append, List.head?_eq_some_head hne, Option.some_or]
    rw [hhead _ hfirst] at hblank
    cases hblank
  · rintro ⟨before, rfl⟩
    have hne := ofChar_ne_nil c
    have hblank := isVisible_of_mem_ofChar hc (List.getLast_mem hne)
    have hend : (before ++ ofChar c).getLast? = some ((ofChar c).getLast hne) := by
      rw [List.getLast?_append, List.getLast?_eq_some_getLast hne, Option.some_or]
    rw [hlast _ hend] at hblank
    cases hblank

theorem isWord_of_isVisible (hne : t ≠ []) (h : ∀ b ∈ t, isVisible b = true) : IsWord t := by
  refine ⟨hne, fun c hc hinside => ?_⟩
  have hmem := List.head_mem (ofChar_ne_nil c)
  have hblank := isVisible_of_mem_ofChar hc hmem
  rw [h _ (hinside.subset hmem)] at hblank
  cases hblank

end Visible

end RecordSchema.Text
