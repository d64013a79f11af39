import RecordSchema.Text.Utf8

/-!
# Glyphs of a text

The bytes of an encoded character are never read in another way: they are one glyph, whatever stands
before and after them. A text can therefore be cut in front of any byte that starts a character, and
the glyphs of the parts are those of the whole.
-/

namespace RecordSchema.Text

theorem isTail_iff {b : UInt8} : isTail b = true ↔ 128 ≤ b.toNat ∧ b.toNat ≤ 191 := by
  simp [isTail, UInt8.le_iff_toNat_le]

section Encoding

/-- The bytes that encode the character of a number, and no shorter ones. -/
inductive Encodes (v : Nat) : Text → Prop where
  | one {b : UInt8} (h : b.toNat < 0x80) (hv : v = b.toNat) : Encodes v [b]
  | two {b b1 : UInt8} (h : 0xC2 ≤ b.toNat ∧ b.toNat ≤ 0xDF) (h1 : isTail b1 = true)
      (hv : v = b.toNat % 32 * 64 + low b1) : Encodes v [b, b1]
  | three {b b1 b2 : UInt8} (h : 0xE0 ≤ b.toNat ∧ b.toNat ≤ 0xEF) (h1 : isTail b1 = true)
      (h2 : isTail b2 = true) (hshortest : ¬ b.toNat = 0xE0 ∨ 0xA0 ≤ b1.toNat)
      (hscalar : ¬ b.toNat = 0xED ∨ b1.toNat < 0xA0)
      (hv : v = (b.toNat % 16 * 64 + low b1) * 64 + low b2) : Encodes v [b, b1, b2]
  | four {b b1 b2 b3 : UInt8} (h : 0xF0 ≤ b.toNat ∧ b.toNat ≤ 0xF4) (h1 : isTail b1 = true)
      (h2 : isTail b2 = true) (h3 : isTail b3 = true)
      (hshortest : ¬ b.toNat = 0xF0 ∨ 0x90 ≤ b1.toNat)
      (hscalar : ¬ b.toNat = 0xF4 ∨ b1.toNat < 0x90)
      (hv : v = ((b.toNat % 8 * 64 + low b1) * 64 + low b2) * 64 + low b3) :
      Encodes v [b, b1, b2, b3]

theorem encoded?_of_encodes {v : Nat} {b : UInt8} {more : Text} (h : Encodes v (b :: more))
    (rest : Text) : encoded? b (more ++ rest) = some (Char.ofNat v, more.length) := by
  cases h with
  | one h hv => simp [encoded?, UInt8.lt_iff_toNat_lt, h, hv]
  | two h h1 hv =>
      have hone : ¬ b.toNat < 128 := by omega
      simp [encoded?, UInt8.lt_iff_toNat_lt, UInt8.le_iff_toNat_le, hone, h, h1, hv]
  | three h h1 h2 hshortest hscalar hv =>
      have hone : ¬ b.toNat < 128 := by omega
      have htwo : ¬ b.toNat ≤ 223 := by omega
      simp [encoded?, UInt8.lt_iff_toNat_lt, UInt8.le_iff_toNat_le, ← UInt8.toNat_inj, hone, htwo,
        h, h1, h2, hshortest, hscalar, hv]
  | four h h1 h2 h3 hshortest hscalar hv =>
      have hone : ¬ b.toNat < 128 := by omega
      have htwo : ¬ b.toNat ≤ 223 := by omega
      have hthree : ¬ b.toNat ≤ 239 := by omega
      simp [encoded?, UInt8.lt_iff_toNat_lt, UInt8.le_iff_toNat_le, ← UInt8.toNat_inj, hone, htwo,
        hthree, h, h1, h2, h3, hshortest, hscalar, hv]

theorem exists_encodes {b : UInt8} {after : Text} {c : Char} {n : Nat}
    (h : encoded? b after = some (c, n)) :
    ∃ v more rest, c = Char.ofNat v ∧ after = more ++ rest ∧ more.length = n ∧
      Encodes v (b :: more) := by
  unfold encoded? at h
  split at h
  · next hone =>
      cases h
      exact ⟨_, [], after, rfl, rfl, rfl, .one (UInt8.lt_iff_toNat_lt.mp hone) rfl⟩
  · split at h
    · split at h
      · next b1 rest htwo =>
          cases h
          simp only [Bool.and_eq_true, decide_eq_true_eq, UInt8.le_iff_toNat_le] at htwo
          exact ⟨_, [b1], rest, rfl, rfl, rfl, .two htwo.1 htwo.2 rfl⟩
      · split at h
        · split at h
          · next b1 _ _ b2 rest hthree =>
              cases h
              simp [UInt8.le_iff_toNat_le, UInt8.lt_iff_toNat_lt, ← UInt8.toNat_inj] at hthree
              obtain ⟨⟨⟨⟨hb, h1⟩, h2⟩, hshortest⟩, hscalar⟩ := hthree
              exact ⟨_, [b1, b2], rest, rfl, rfl, rfl, .three hb h1 h2 hshortest hscalar rfl⟩
          · split at h
            · split at h
              · next hfour =>
                  cases h
                  simp [UInt8.le_iff_toNat_le, UInt8.lt_iff_toNat_lt, ← UInt8.toNat_inj] at hfour
                  obtain ⟨⟨⟨⟨⟨hb, h1⟩, h2⟩, h3⟩, hshortest⟩, hscalar⟩ := hfour
                  exact ⟨_, [_, _, _], _, rfl, rfl, rfl, .four hb h1 h2 h3 hshortest hscalar rfl⟩
              · cases h
            · cases h
        · cases h
    · cases h

theorem toNat_byte {n : Nat} (h : n < 256) : (UInt8.ofNat n).toNat = n := by
  rw [UInt8.toNat_ofNat']
  omega

theorem tail_byte {n : Nat} (h : n < 64) :
    isTail (UInt8.ofNat (n + 128)) = true ∧ low (UInt8.ofNat (n + 128)) = n := by
  rw [isTail_iff, low, toNat_byte (by omega)]
  omega

theorem encodes_ofChar (c : Char) : Encodes c.toNat (ofChar c) := by
  have hvalid : c.toNat < 0xD800 ∨ 0xDFFF < c.toNat ∧ c.toNat < 0x110000 := c.valid
  have hval : c.val.toNat = c.toNat := rfl
  unfold ofChar String.utf8EncodeChar
  simp only [hval]
  obtain ⟨h3, hlow3⟩ := tail_byte (show c.toNat % 64 < 64 by omega)
  obtain ⟨h2, hlow2⟩ := tail_byte (show c.toNat / 64 % 64 < 64 by omega)
  obtain ⟨h1, hlow1⟩ := tail_byte (show c.toNat / 4096 % 64 < 64 by omega)
  split
  · have hfirst : (UInt8.ofNat c.toNat).toNat = c.toNat := toNat_byte (by omega)
    exact .one (by omega) hfirst.symm
  · split
    · have hfirst := toNat_byte (show c.toNat / 64 % 32 + 192 < 256 by omega)
      exact .two (by omega) h3 (by omega)
    · split
      · have hfirst := toNat_byte (show c.toNat / 4096 % 16 + 224 < 256 by omega)
        have hsecond := toNat_byte (show c.toNat / 64 % 64 + 128 < 256 by omega)
        exact .three (by omega) h2 h3 (by omega) (by omega) (by omega)
      · have hfirst := toNat_byte (show c.toNat / 262144 % 8 + 240 < 256 by omega)
        have hsecond := toNat_byte (show c.toNat / 4096 % 64 + 128 < 256 by omega)
        exact .four (by omega) h1 h2 h3 (by omega) (by omega) (by omega)

theorem low_of_isTail {b : UInt8} (h : isTail b = true) : b.toNat = low b + 128 ∧ low b < 64 := by
  rw [isTail_iff] at h
  rw [low]
  omega

theorem byte_eq {n : Nat} {b : UInt8} (h : n = b.toNat) : UInt8.ofNat n = b := by
  rw [h, UInt8.ofNat_toNat]

theorem ofChar_of_encodes {v : Nat} {t : Text} (h : Encodes v t) : ofChar (Char.ofNat v) = t := by
  -- The bounds on the bytes are those of the scalar values.
  have hval : (v < 0xD800 ∨ 0xDFFF < v ∧ v < 0x110000) → (Char.ofNat v).val.toNat = v := by
    intro hvalid
    rw [Char.ofNat, dif_pos hvalid]
    rfl
  unfold ofChar String.utf8EncodeChar
  cases h with
  | @one b h hv =>
      rw [hval (by omega), if_pos (by omega), byte_eq (b := b) (by omega)]
  | @two b b1 h h1 hv =>
      obtain ⟨heq1, hlt1⟩ := low_of_isTail h1
      rw [hval (by omega), if_neg (by omega), if_pos (by omega), byte_eq (b := b) (by omega),
        byte_eq (b := b1) (by omega)]
  | @three b b1 b2 h h1 h2 hshortest hscalar hv =>
      obtain ⟨heq1, hlt1⟩ := low_of_isTail h1
      obtain ⟨heq2, hlt2⟩ := low_of_isTail h2
      rw [hval (by omega), if_neg (by omega), if_neg (by omega), if_pos (by omega),
        byte_eq (b := b) (by omega), byte_eq (b := b1) (by omega), byte_eq (b := b2) (by omega)]
  | @four b b1 b2 b3 h h1 h2 h3 hshortest hscalar hv =>
      obtain ⟨heq1, hlt1⟩ := low_of_isTail h1
      obtain ⟨heq2, hlt2⟩ := low_of_isTail h2
      obtain ⟨heq3, hlt3⟩ := low_of_isTail h3
      rw [hval (by omega), if_neg (by omega), if_neg (by omega), if_neg (by omega),
        byte_eq (b := b) (by omega), byte_eq (b := b1) (by omega), byte_eq (b := b2) (by omega),
        byte_eq (b := b3) (by omega)]

theorem isTail_of_encodes {v : Nat} {b : UInt8} {more : Text} (h : Encodes v (b :: more)) :
    ∀ b' ∈ more, isTail b' = true := by
  cases h with
  | one h hv => simp
  | two h h1 hv => simp [h1]
  | three h h1 h2 hshortest hscalar hv => simp [h1, h2]
  | four h h1 h2 h3 hshortest hscalar hv => simp [h1, h2, h3]

theorem isTail_eq_false_of_encodes {v : Nat} {b : UInt8} {more : Text} (h : Encodes v (b :: more)) :
    isTail b = false := by
  rw [← Bool.not_eq_true, isTail_iff]
  cases h with
  | one h hv => omega
  | two h h1 hv => omega
  | three h h1 h2 hshortest hscalar hv => omega
  | four h h1 h2 h3 hshortest hscalar hv => omega

end Encoding

/-- Whether a text starts no encoded character in its middle: whatever stands before it, its own
glyphs are unchanged. -/
def IsDetached (t : Text) : Prop := ∀ b ∈ t.head?, isTail b = false

section Glyphs

variable {t : Text}

theorem glyphsAfter_eq (n : Nat) (t : Text) : glyphsAfter n t = glyphs (t.drop n) := by
  induction t generalizing n with
  | nil => simp [glyphsAfter, glyphs]
  | cons b rest ih =>
      cases n with
      | zero => rfl
      | succ n => rw [glyphsAfter, ih, List.drop_succ_cons]

theorem glyphs_cons (b : UInt8) (rest : Text) :
    glyphs (b :: rest) =
      match encoded? b rest with
      | some (c, n) => .char c :: glyphs (rest.drop n)
      | none => .stray b :: glyphs rest := by
  rw [glyphs, glyphsAfter]
  cases encoded? b rest with
  | some p => exact congrArg (Glyph.char p.1 :: ·) (glyphsAfter_eq p.2 rest)
  | none => rfl

theorem exists_ofChar_eq (c : Char) :
    ∃ b more, ofChar c = b :: more ∧ isTail b = false ∧
      ∀ rest, encoded? b (more ++ rest) = some (c, more.length) := by
  have h := encodes_ofChar c
  cases hbytes : ofChar c with
  | nil =>
      rw [hbytes] at h
      cases h
  | cons b more =>
      rw [hbytes] at h
      refine ⟨b, more, rfl, isTail_eq_false_of_encodes h, fun rest => ?_⟩
      rw [encoded?_of_encodes h, Char.ofNat_toNat]

theorem isDetached_ofChar_append (c : Char) (t : Text) : IsDetached (ofChar c ++ t) := by
  obtain ⟨b, more, hbytes, htail, _⟩ := exists_ofChar_eq c
  rw [hbytes]
  rintro b' hb'
  cases hb'
  exact htail

/-- An encoded character is a glyph of its own, whatever follows. -/
theorem glyphs_ofChar_append (c : Char) (t : Text) :
    glyphs (ofChar c ++ t) = .char c :: glyphs t := by
  obtain ⟨b, more, hbytes, _, hencoded⟩ := exists_ofChar_eq c
  rw [hbytes, List.cons_append, glyphs_cons, hencoded]
  simp

/-- The first glyph stands at the front of the text, and the others are those of the rest. -/
theorem exists_of_glyphs_eq_cons {g : Glyph} {gs : List Glyph} (h : glyphs t = g :: gs) :
    ∃ rest, t = g.bytes ++ rest ∧ glyphs rest = gs := by
  cases t with
  | nil => cases h
  | cons b rest =>
      rw [glyphs_cons] at h
      split at h
      · next c n hencoded =>
          obtain ⟨v, more, after, rfl, rfl, rfl, hv⟩ := exists_encodes hencoded
          cases h
          refine ⟨after, ?_, by simp⟩
          rw [Glyph.bytes, ofChar_of_encodes hv]
          rfl
      · cases h
        exact ⟨rest, rfl, rfl⟩

theorem glyphs_eq_nil_iff : glyphs t = [] ↔ t = [] := by
  cases t with
  | nil => exact ⟨fun _ => rfl, fun _ => rfl⟩
  | cons b rest =>
      rw [glyphs_cons]
      split
      · simp
      · simp

/-- Writing the glyphs back gives the same bytes. -/
theorem ofGlyphs_glyphs (t : Text) : ofGlyphs (glyphs t) = t := by
  induction hgs : glyphs t generalizing t with
  | nil =>
      rw [glyphs_eq_nil_iff.mp hgs]
      rfl
  | cons g gs ih =>
      obtain ⟨rest, rfl, hrest⟩ := exists_of_glyphs_eq_cons hgs
      rw [ofGlyphs, List.flatMap_cons]
      exact congrArg (g.bytes ++ ·) (ih rest hrest)

/-- A glyph that the text after it leaves alone is left alone by a part of that text. -/
theorem glyphs_bytes_append {g : Glyph} {gs : List Glyph} {t t' : Text}
    (h : glyphs (g.bytes ++ (t ++ t')) = g :: gs) : glyphs (g.bytes ++ t) = g :: glyphs t := by
  cases g with
  | char c => exact glyphs_ofChar_append c t
  | stray b =>
      have hnone : encoded? b t = none := by
        cases hown : encoded? b t with
        | none => rfl
        | some p =>
            obtain ⟨v, more, rest, _, rfl, _, hv⟩ := exists_encodes hown
            rw [Glyph.bytes, List.cons_append, List.nil_append, List.append_assoc, glyphs_cons,
              encoded?_of_encodes hv] at h
            cases h
      rw [Glyph.bytes, List.cons_append, List.nil_append, glyphs_cons, hnone]

/-- A split of the glyphs is a split of the text. -/
theorem exists_append_of_glyphs {gs gs' : List Glyph} (h : glyphs t = gs ++ gs') :
    ∃ t₁ t₂, t = t₁ ++ t₂ ∧ glyphs t₁ = gs ∧ glyphs t₂ = gs' := by
  induction gs generalizing t with
  | nil => exact ⟨[], t, rfl, rfl, h⟩
  | cons g gs ih =>
      obtain ⟨after, rfl, hafter⟩ := exists_of_glyphs_eq_cons h
      obtain ⟨t₁, t₂, rfl, hfirst, hsecond⟩ := ih hafter
      refine ⟨g.bytes ++ t₁, t₂, (List.append_assoc _ _ _).symm, ?_, hsecond⟩
      rw [glyphs_bytes_append h, hfirst]

/-- No encoding reaches beyond the start of a detached text. -/
theorem encoded?_append {t' : Text} (h : IsDetached t') (b : UInt8) (t : Text) :
    encoded? b (t ++ t') = encoded? b t := by
  cases hown : encoded? b t with
  | some p =>
      obtain ⟨c, n⟩ := p
      obtain ⟨v, more, rest, rfl, rfl, rfl, hv⟩ := exists_encodes hown
      rw [List.append_assoc, encoded?_of_encodes hv]
  | none =>
      cases hboth : encoded? b (t ++ t') with
      | none => rfl
      | some p =>
          obtain ⟨c, n⟩ := p
          obtain ⟨v, more, rest, rfl, hsplit, rfl, hv⟩ := exists_encodes hboth
          rcases List.append_eq_append_iff.mp hsplit with ⟨beyond, rfl, rfl⟩ | ⟨after, rfl, _⟩
          · cases beyond with
            | nil =>
                have hown' := encoded?_of_encodes hv []
                rw [List.append_nil, List.append_nil, hown] at hown'
                cases hown'
            | cons b' beyond =>
                have htail := isTail_of_encodes hv b' (by simp)
                rw [h b' rfl] at htail
                cases htail
          · rw [encoded?_of_encodes hv] at hown
            cases hown

/-- The glyphs of a text end before a detached text. -/
theorem glyphs_append {t' : Text} (h : IsDetached t') (t : Text) :
    glyphs (t ++ t') = glyphs t ++ glyphs t' := by
  induction hlength : t.length using Nat.strongRecOn generalizing t with
  | ind n ih =>
      cases t with
      | nil => rfl
      | cons b rest =>
          rw [List.length_cons] at hlength
          rw [List.cons_append, glyphs_cons, glyphs_cons, encoded?_append h]
          cases hencoded : encoded? b rest with
          | some p =>
              obtain ⟨c, k⟩ := p
              obtain ⟨v, more, after, rfl, rfl, rfl, _⟩ := exists_encodes hencoded
              rw [List.length_append] at hlength
              simp only [List.append_assoc, List.drop_left, List.cons_append]
              rw [ih _ (by omega) after rfl]
          | none =>
              simp only [List.cons_append]
              rw [ih _ (by omega) rest rfl]

end Glyphs

end RecordSchema.Text
