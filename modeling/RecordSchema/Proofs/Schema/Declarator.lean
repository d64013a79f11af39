import RecordSchema.Proofs.Schema.Document
import RecordSchema.Proofs.Text.Blank
import RecordSchema.Schema.Declarator

/-!
# The grammar of declarators

A declarator is an identifier, alone or in front of an empty pair of parentheses or of a bound in
brackets. The reader looks for brackets and parentheses by position and by count; here its answers
are compared with the three written forms, over every text.
-/

namespace RecordSchema

open Text

theorem isVisible_of_isIdentifierRest {b : UInt8} (h : isIdentifierRest b = true) :
    isVisible b = true := by
  simp only [isIdentifierRest, isIdentifierStart, isIdentifierLetter, Bool.or_eq_true,
    Bool.and_eq_true, decide_eq_true_eq, beq_iff_eq, UInt8.le_iff_toNat_le, ← UInt8.toNat_inj,
    UInt8.reduceToNat] at h
  simp only [isVisible, Bool.and_eq_true, decide_eq_true_eq, UInt8.le_iff_toNat_le,
    UInt8.reduceToNat]
  omega

theorem ne_nil_of_isIdentifier {name : Text} (h : isIdentifier name = true) : name ≠ [] := by
  rintro rfl
  cases h

theorem isWord_of_isIdentifier {name : Text} (h : isIdentifier name = true) : IsWord name :=
  isWord_of_isVisible (ne_nil_of_isIdentifier h) fun b hb =>
    isVisible_of_isIdentifierRest (isIdentifierRest_of_mem h b hb)

namespace Declarator

/-- Whether a byte is a bracket or a parenthesis. -/
def isFence (b : UInt8) : Bool := opensSuffix b || b == closeBracket || b == closeParen

/-- The written forms of a declarator, without white space at the ends. -/
inductive Written : Declarator → Text → Prop where
  | single {name : Text} (hname : isIdentifier name = true) : Written ⟨name, .single⟩ name
  | action {name gap : Text} (hname : isIdentifier name = true) (hgap : IsBlank gap) :
      Written ⟨name, .action⟩ (name ++ gap ++ [openParen, closeParen])
  | bound {name gap inner text : Text} (hname : isIdentifier name = true) (hgap : IsBlank gap)
      (hinner : ¬ IsBlank inner) (hfence : ∀ b ∈ inner, isFence b = false)
      (htext : Trims inner text) :
      Written ⟨name, .bound text⟩ (name ++ gap ++ openBracket :: (inner ++ [closeBracket]))

variable {d : Declarator} {name gap core text : Text} {b : UInt8}

theorem isVisible_of_isFence (h : isFence b = true) : isVisible b = true := by
  simp only [isFence, opensSuffix, Bool.or_eq_true, beq_iff_eq] at h
  rcases h with ((rfl | rfl) | rfl) | rfl <;> decide

theorem isFence_of_isBlank (h : IsBlank gap) (hb : b ∈ gap) : isFence b = false := by
  refine Bool.eq_false_iff.mpr fun hfence => ?_
  have hvisible := isVisible_of_isFence hfence
  rw [h.isVisible hb] at hvisible
  cases hvisible

theorem isFence_of_isIdentifier (h : isIdentifier name = true) (hb : b ∈ name) :
    isFence b = false := by
  refine Bool.eq_false_iff.mpr fun hfence => ?_
  have hrest := isIdentifierRest_of_mem h b hb
  simp only [isFence, opensSuffix, Bool.or_eq_true, beq_iff_eq] at hfence
  rcases hfence with ((rfl | rfl) | rfl) | rfl <;> exact absurd hrest (by decide)

theorem named_eq_ok_iff {suffix : Suffix} :
    named name suffix = .ok d ↔ isIdentifier name = true ∧ d = ⟨name, suffix⟩ := by
  unfold named
  split
  · next h => simp [h, eq_comm]
  · next h => simp [h]

section Reading

variable {rest : Text}

theorem not_opensSuffix (hname : ∀ b ∈ name, isFence b = false) :
    ∀ b ∈ name, (!opensSuffix b) = true := by
  intro b hb
  have hfence := hname b hb
  simp only [isFence, Bool.or_eq_false_iff] at hfence
  simp [hfence.1.1]

/-- The name ends where the first bracket or parenthesis opens. -/
theorem span_append (hname : ∀ b ∈ name, isFence b = false) (hopen : opensSuffix b = true)
    (rest : Text) :
    (name ++ b :: rest).takeWhile (fun b => !opensSuffix b) = name ∧
      (name ++ b :: rest).dropWhile (fun b => !opensSuffix b) = b :: rest := by
  have hnone := not_opensSuffix hname
  rw [List.takeWhile_append_of_pos hnone, List.dropWhile_append_of_pos hnone,
    List.takeWhile_cons_of_neg (by simp [hopen]), List.dropWhile_cons_of_neg (by simp [hopen])]
  simp

theorem trims_name (hname : isIdentifier name = true) (hgap : IsBlank gap) :
    Trims (name ++ gap) name := by
  have hword := isWord_of_isIdentifier hname
  have htrimmed : IsTrimmed name :=
    ⟨fun c hc hfront => hword.not_inside c hc hfront.isInfix,
      fun c hc hback => hword.not_inside c hc hback.isInfix⟩
  exact ⟨htrimmed, [], gap, isBlank_nil, hgap, by simp⟩

theorem forall_isFence_iff {inner : Text} :
    (∀ b ∈ inner, isFence b = false) ↔
      openBracket ∉ inner ∧ closeBracket ∉ inner ∧ openParen ∉ inner ∧ closeParen ∉ inner := by
  constructor
  · intro h
    refine ⟨fun hb => ?_, fun hb => ?_, fun hb => ?_, fun hb => ?_⟩ <;>
      exact absurd (h _ hb) (by decide)
  · rintro ⟨h1, h2, h3, h4⟩ b hb
    refine Bool.eq_false_iff.mpr fun hfence => ?_
    simp only [isFence, opensSuffix, Bool.or_eq_true, beq_iff_eq] at hfence
    rcases hfence with ((rfl | rfl) | rfl) | rfl
    exacts [h1 hb, h3 hb, h2 hb, h4 hb]

theorem boundOf_bracketed {inner : Text} (hopen : openBracket ∉ inner)
    (hclose : closeBracket ∉ inner) :
    boundOf text (openBracket :: (inner ++ [closeBracket])) =
      if trim inner = [] then .error (.emptyLength text)
      else if (trim inner).contains openParen || (trim inner).contains closeParen then
        .error (.actionArray text)
      else .ok (trim inner) := by
  have hopened : (openBracket :: (inner ++ [closeBracket])).count openBracket = 1 := by
    rw [List.count_cons_self, List.count_append, List.count_eq_zero.mpr hopen]
    decide
  have hclosed : (openBracket :: (inner ++ [closeBracket])).count closeBracket = 1 := by
    rw [List.count_cons_of_ne (by decide), List.count_append, List.count_eq_zero.mpr hclose]
    decide
  have hsuffix : hasSuffix [closeBracket] (openBracket :: (inner ++ [closeBracket])) = true :=
    List.isSuffixOf_iff_suffix.mpr ⟨openBracket :: inner, rfl⟩
  simp [boundOf, hopened, hclosed, hsuffix]

theorem exists_inner_of_boundOf {bound : Text}
    (h : boundOf text (openBracket :: rest) = .ok bound) :
    ∃ inner, rest = inner ++ [closeBracket] ∧ openBracket ∉ inner ∧ closeBracket ∉ inner := by
  unfold boundOf at h
  split at h
  · cases h
  · next hform =>
      simp only [hasSuffix, Bool.or_eq_true, not_or, Bool.not_eq_true', Bool.not_eq_false,
        List.isSuffixOf_iff_suffix, decide_eq_true_eq, not_not] at hform
      obtain ⟨⟨⟨before, hbefore⟩, hopen⟩, hclose⟩ := hform
      cases before with
      | nil => exact absurd (List.cons.inj hbefore).1 (by decide)
      | cons b inner =>
          obtain ⟨rfl, rfl⟩ := List.cons.inj hbefore
          rw [List.count_cons_self, List.append_eq, List.count_append] at hopen
          rw [List.count_cons_of_ne (by decide), List.append_eq, List.count_append] at hclose
          have hlast : [closeBracket].count closeBracket = 1 := by decide
          exact ⟨inner, rfl, List.count_eq_zero.mp (by omega), List.count_eq_zero.mp (by omega)⟩

theorem boundOf_eq_ok_iff {bound : Text} :
    boundOf text (openBracket :: rest) = .ok bound ↔
      ∃ inner, rest = inner ++ [closeBracket] ∧ ¬ IsBlank inner ∧ (∀ b ∈ inner, isFence b = false) ∧
        Trims inner bound := by
  constructor
  · intro h
    obtain ⟨inner, rfl, hopen, hclose⟩ := exists_inner_of_boundOf h
    have htrims : Trims inner (trim inner) := trim_eq_iff.mp rfl
    rw [boundOf_bracketed hopen hclose] at h
    split at h
    · cases h
    · next hempty =>
        split at h
        · cases h
        · next hparens =>
            cases h
            simp only [Bool.or_eq_true, List.contains_iff_mem, not_or] at hparens
            refine ⟨inner, rfl, fun hblank => ?_, forall_isFence_iff.mpr ⟨hopen, hclose, ?_, ?_⟩,
              htrims⟩
            · exact hempty (trim_eq_iff.mpr (trims_nil_iff.mpr hblank))
            · exact mt (htrims.mem_iff (by decide)).mp hparens.1
            · exact mt (htrims.mem_iff (by decide)).mp hparens.2
  · rintro ⟨inner, rfl, hblank, hfence, htrims⟩
    obtain ⟨hopen, hclose, hopen', hclose'⟩ := forall_isFence_iff.mp hfence
    have hne : bound ≠ [] := by
      rintro rfl
      exact hblank (trims_nil_iff.mp htrims)
    rw [boundOf_bracketed hopen hclose, trim_eq_iff.mpr htrims, if_neg hne, if_neg]
    simp only [Bool.or_eq_true, List.contains_iff_mem, not_or]
    exact ⟨mt (htrims.mem_iff (by decide)).mpr hopen', mt (htrims.mem_iff (by decide)).mpr hclose'⟩

end Reading

theorem isFence_of_mem_append (hname : isIdentifier name = true) (hgap : IsBlank gap) :
    ∀ b ∈ name ++ gap, isFence b = false := fun _ hb =>
  (List.mem_append.mp hb).elim (isFence_of_isIdentifier hname) (isFence_of_isBlank hgap)

theorem ofTrimmed_of_written (h : Written d core) : ofTrimmed core = .ok d := by
  cases h with
  | single hname =>
      have hfence : ∀ b ∈ core, isFence b = false := fun b hb => isFence_of_isIdentifier hname hb
      obtain ⟨_, hclose, _, hclose'⟩ := forall_isFence_iff.mp hfence
      have hdrop : core.dropWhile (fun b => !opensSuffix b) = [] :=
        List.dropWhile_eq_nil_iff.mpr (not_opensSuffix hfence)
      simp only [ofTrimmed, hdrop]
      rw [if_neg (by simp [hclose, hclose'])]
      exact named_eq_ok_iff.mpr ⟨hname, rfl⟩
  | @action name gap hname hgap =>
      obtain ⟨htake, hdrop⟩ := span_append (isFence_of_mem_append hname hgap)
        (show opensSuffix openParen = true by decide) [closeParen]
      simp only [ofTrimmed, htake, hdrop, if_true, trim_eq_iff.mpr (trims_name hname hgap)]
      exact named_eq_ok_iff.mpr ⟨hname, rfl⟩
  | @bound name gap inner text hname hgap hinner hfence htext =>
      obtain ⟨htake, hdrop⟩ := span_append (isFence_of_mem_append hname hgap)
        (show opensSuffix openBracket = true by decide) (inner ++ [closeBracket])
      simp only [ofTrimmed, htake, hdrop, trim_eq_iff.mpr (trims_name hname hgap)]
      rw [if_neg (by decide), bind_eq_ok_iff]
      exact ⟨text, boundOf_eq_ok_iff.mpr ⟨inner, rfl, hinner, hfence, htext⟩,
        named_eq_ok_iff.mpr ⟨hname, rfl⟩⟩

/-- Only the end of a name is trimmed in a text that has no white space in front. -/
theorem exists_gap {rest : Text} (hcore : IsTrimmed (name ++ rest)) :
    ∃ gap, IsBlank gap ∧ name = trim name ++ gap := by
  obtain ⟨_, before, gap, hbefore, hgap, hname⟩ := trim_eq_iff.mp (rfl : trim name = trim name)
  rcases hbefore.eq_nil_or with rfl | ⟨c, hc, hfront⟩
  · exact ⟨gap, hgap, hname⟩
  · refine absurd (hfront.trans ?_) (hcore.not_front c hc)
    rw [hname, List.append_assoc, List.append_assoc]
    exact List.prefix_append _ _

theorem written_of_ofTrimmed (hcore : IsTrimmed core) (h : ofTrimmed core = .ok d) :
    Written d core := by
  have hsplit := List.takeWhile_append_dropWhile (p := fun b => !opensSuffix b) (l := core)
  have hopen := List.head?_dropWhile_not (fun b => !opensSuffix b) core
  unfold ofTrimmed at h
  generalize core.takeWhile (fun b => !opensSuffix b) = name at h hsplit
  generalize core.dropWhile (fun b => !opensSuffix b) = suffix at h hsplit hopen
  subst hsplit
  cases suffix with
  | nil =>
      dsimp only at h
      split at h
      · cases h
      · obtain ⟨hname, rfl⟩ := named_eq_ok_iff.mp h
        exact .single hname
  | cons b rest =>
      obtain ⟨gap, hgap, hname⟩ := exists_gap hcore
      dsimp only at h
      generalize trim name = identifier at h hname
      subst hname
      split at h
      · next hparen =>
          split at h
          · next hsuffix =>
              obtain ⟨hname, rfl⟩ := named_eq_ok_iff.mp h
              rw [hsuffix]
              exact .action hname hgap
          · cases h
      · next hparen =>
          have hbracket : b = openBracket := by
            simpa [opensSuffix, hparen] using hopen
          subst hbracket
          obtain ⟨bound, hbound, hnamed⟩ := bind_eq_ok_iff.mp h
          obtain ⟨inner, rfl, hinner, hfence, htext⟩ := boundOf_eq_ok_iff.mp hbound
          obtain ⟨hname, rfl⟩ := named_eq_ok_iff.mp hnamed
          exact .bound hname hgap hinner hfence htext

theorem isTrimmed_append {rest : Text} (hname : isIdentifier name = true)
    (hb : isVisible b = true) :
    IsTrimmed (name ++ rest ++ [b]) := by
  refine isTrimmed_of_isVisible (fun a ha => ?_) (fun a ha => ?_)
  · obtain ⟨first, more, rfl⟩ := List.exists_cons_of_ne_nil (ne_nil_of_isIdentifier hname)
    cases ha
    exact isVisible_of_isIdentifierRest (isIdentifierRest_of_mem hname a (by simp))
  · rw [List.getLast?_concat] at ha
    cases ha
    exact hb

theorem Written.isTrimmed (h : Written d core) : IsTrimmed core := by
  cases h with
  | single hname => exact (trims_name hname isBlank_nil).isTrimmed
  | @action name gap hname hgap =>
      have hform : name ++ gap ++ [openParen, closeParen] =
          name ++ (gap ++ [openParen]) ++ [closeParen] := by
        simp
      rw [hform]
      exact isTrimmed_append hname rfl
  | @bound name gap inner text hname hgap hinner hfence htext =>
      have hform : name ++ gap ++ openBracket :: (inner ++ [closeBracket]) =
          name ++ (gap ++ openBracket :: inner) ++ [closeBracket] := by
        simp
      rw [hform]
      exact isTrimmed_append hname rfl

/-- The rendering is the written form with no white space in it. -/
theorem Written.render (h : Written d core) : Written d d.render := by
  cases h with
  | single hname => exact .single hname
  | @action name gap hname hgap =>
      have hwritten := Written.action hname isBlank_nil
      rwa [List.append_nil] at hwritten
  | @bound name gap inner text hname hgap hinner hfence htext =>
      have htext' : Trims text text := .of_isTrimmed htext.isTrimmed
      have hblank : ¬ IsBlank text := by
        intro hblank
        have hnil : text = [] :=
          (trim_eq_iff.mpr htext').symm.trans (trim_eq_iff.mpr (trims_nil_iff.mpr hblank))
        exact hinner (trims_nil_iff.mp (hnil ▸ htext))
      have hfence' : ∀ b ∈ text, isFence b = false := by
        obtain ⟨_, before, after, _, _, rfl⟩ := htext
        exact fun b hb => hfence b (by simp [hb])
      have hwritten := Written.bound hname isBlank_nil hblank hfence' htext'
      simpa [Declarator.render] using hwritten

theorem parse_eq_ok_iff {t : Text} : parse t = .ok d ↔ ∃ core, Trims t core ∧ Written d core := by
  constructor
  · intro h
    have htrims := trim_eq_iff.mp (rfl : trim t = trim t)
    exact ⟨trim t, htrims, written_of_ofTrimmed htrims.isTrimmed h⟩
  · rintro ⟨core, htrims, hwritten⟩
    rw [parse, trim_eq_iff.mpr htrims]
    exact ofTrimmed_of_written hwritten

/-- Exactly the written forms are read, with white space around them, and a result is read again
from its own rendering. -/
theorem parse_eq_ok_iff_written (t : Text) :
    (∀ d, parse t = .ok d ↔ ∃ core, Trims t core ∧ Written d core) ∧
      ∀ d, parse t = .ok d →
        ¬ (d.isRepeated = true ∧ d.isAction = true) ∧ parse d.render = .ok d := by
  refine ⟨fun d => parse_eq_ok_iff, fun d h => ⟨?_, ?_⟩⟩
  · rintro ⟨hrepeated, haction⟩
    rw [isAction, beq_iff_eq] at haction
    simp [isRepeated, bound, haction] at hrepeated
  · obtain ⟨core, _, hwritten⟩ := parse_eq_ok_iff.mp h
    have hrender := hwritten.render
    exact parse_eq_ok_iff.mpr ⟨d.render, .of_isTrimmed hrender.isTrimmed, hrender⟩

/-- The bound `N` in brackets, after a no-break space and between other white space. -/
def spacedBound : Text := "  tags\u00a0[\tN ]\n"

theorem parse_eq_ok_iff_written_spacedBound :
    (∃ core, Trims spacedBound core ∧ Written ⟨"tags", .bound "N"⟩ core) ∧
      parse "tags[N]" = .ok ⟨"tags", .bound "N"⟩ := by
  have hparse : parse spacedBound = .ok ⟨"tags", .bound "N"⟩ := by decide +kernel
  obtain ⟨hiff, hresult⟩ := parse_eq_ok_iff_written spacedBound
  exact ⟨(hiff _).mp hparse, (hresult _ hparse).2⟩

end Declarator

end RecordSchema
