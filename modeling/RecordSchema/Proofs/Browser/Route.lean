import Mathlib.Data.List.TakeWhile
import RecordSchema.Browser.Route
import RecordSchema.Proofs.Text.Path
import RecordSchema.Schema.Keyword

/-!
# Targets and their routes

A path can be asked for by writing it with escapes: decoding undoes the escapes, and the target is
taken decoded because it is written in the usual way. The pages of definitions are found by kind and
name.
-/

namespace RecordSchema

open Text

namespace Target

theorem digitValue?_upperHexDigit {n : Nat} (h : n < 16) :
    Number.digitValue? (upperHexDigit n) = some n := by
  have hall : ∀ n : Fin 16, Number.digitValue? (upperHexDigit n) = some n.val := by decide
  exact hall ⟨n, h⟩

theorem escape_cons (b : UInt8) (t : Text) :
    escape (b :: t) =
      (if isPlain b then [b]
        else [37, upperHexDigit (b.toNat / 16), upperHexDigit (b.toNat % 16)]) ++ escape t :=
  List.flatMap_cons

theorem escape_append (s t : Text) : escape (s ++ t) = escape s ++ escape t := List.flatMap_append

theorem unescape?_cons {b : UInt8} (h : b ≠ 37) (t : Text) :
    unescape? (b :: t) = (unescape? t).map (b :: ·) := by
  rw [unescape?]
  · exact fun _ _ _ hb _ => h hb
  · exact fun hb => h hb

theorem unescape?_escape (t : Text) : unescape? (escape t) = some t := by
  induction t with
  | nil => rfl
  | cons b rest ih =>
      rw [escape_cons]
      by_cases hplain : isPlain b = true
      · have hb : b ≠ 37 := by
          rintro rfl
          exact absurd hplain (by decide)
        rw [if_pos hplain, List.singleton_append, unescape?_cons hb, ih]
        rfl
      · have hbyte := b.toNat_lt
        have hhigh : b.toNat / 16 < 16 := by omega
        have hlow : b.toNat % 16 < 16 := by omega
        have hvalue : (16 * (b.toNat / 16) + b.toNat % 16).toUInt8 = b := by
          rw [Nat.div_add_mod]
          exact UInt8.ofNat_toNat
        rw [if_neg hplain]
        simp only [List.cons_append, List.nil_append, unescape?, digitValue?_upperHexDigit hhigh,
          digitValue?_upperHexDigit hlow, ih, Option.filter_some, hhigh, hlow, decide_true, if_true]
        exact congrArg (fun b => some (b :: rest)) hvalue

theorem ne_of_mem_escape {t : Text} {b : UInt8} (h : b ∈ escape t) : b ≠ 63 := by
  obtain ⟨c, _, hb⟩ := List.mem_flatMap.mp h
  split at hb
  · next hplain =>
      rintro rfl
      cases List.mem_singleton.mp hb
      exact absurd hplain (by decide)
  · have hdigit : ∀ n : Fin 16, upperHexDigit n ≠ 63 := by decide
    have hbyte := c.toNat_lt
    simp only [List.mem_cons, List.not_mem_nil, or_false] at hb
    rcases hb with rfl | rfl | rfl
    · decide
    · exact hdigit ⟨c.toNat / 16, by omega⟩
    · exact hdigit ⟨c.toNat % 16, by omega⟩

/-- A path that starts with a slash is asked for by writing it with escapes. -/
theorem path?_escape {method t : Text} (h : t.head? = some 47) :
    path? method (escape t) = some t := by
  obtain ⟨rest, rfl⟩ : ∃ rest, t = 47 :: rest := by
    cases t with
    | nil => cases h
    | cons b rest => exact ⟨rest, by rw [Option.some.inj h]⟩
  have hhead : escape (47 :: rest) = 47 :: escape rest := rfl
  have hscheme : afterScheme? (escape (47 :: rest)) = none := by
    rw [hhead]
    rfl
  have hwritten : written (escape (47 :: rest)) = escape (47 :: rest) := by
    rw [written, hscheme]
    exact List.takeWhile_eq_self_iff.mpr fun b hb => by simpa using ne_of_mem_escape hb
  have hhost : ¬ (method = ("CONNECT" : Text) ∧ (escape (47 :: rest)).head? ≠ some 47) := by
    rintro ⟨_, hslash⟩
    exact hslash (by rw [hhead, List.head?_cons])
  simp only [path?, if_neg hhost, hwritten, unescape?_escape, Option.map_some, if_true,
    List.isEmpty_cons, Bool.false_eq_true, if_false]

end Target

/-- The segment that the pages of a kind of definitions stand under. -/
def Keyword.segment? : Keyword → Option Text
  | .object => some "objects"
  | .enum => some "enums"
  | .bitmask => some "bitmasks"
  | .database => some "databases"
  | _ => none

namespace Route

/-- The page of a definition. -/
def page? : Keyword → Text → Option Route
  | .object, name => some (.object name)
  | .enum, name => some (.enum name)
  | .bitmask, name => some (.bitmask name)
  | .database, name => some (.database name)
  | _, _ => none

/-- Names are single segments, so a name with a slash has no page. -/
theorem ofPath?_segment {k : Keyword} {segment : Text} (h : k.segment? = some segment)
    (name : Text) :
    ofPath? (47 :: segment ++ 47 :: name) =
      if name = [] ∨ 47 ∈ name then none else page? k name := by
  have hsegment : (47 : UInt8) ∉ segment := by
    cases k <;> cases h <;> decide
  have hsplit : splitOn 47 (47 :: segment ++ 47 :: name) = [] :: segment :: splitOn 47 name := by
    have hfirst :=
      splitOn_append_cons (List.not_mem_nil (a := (47 : UInt8))) (segment ++ 47 :: name)
    rwa [splitOn_append_cons hsegment] at hfirst
  rw [ofPath?, hsplit]
  by_cases hslash : 47 ∈ name
  · obtain ⟨first, rest, rfl, hfirst⟩ := List.eq_append_cons_of_mem hslash
    rw [splitOn_append_cons hfirst, if_pos (Or.inr hslash)]
    cases hrest : splitOn 47 rest with
    | nil => exact absurd hrest (splitOn_ne_nil 47 rest)
    | cons second more => rfl
  · rw [splitOn_of_notMem hslash]
    cases name with
    | nil => rfl
    | cons b rest =>
        rw [if_neg (by simpa using hslash)]
        cases k <;> cases h <;> rfl

/-- The route of a target that asks for a page, with the name written with escapes. -/
theorem ofPath?_target {k : Keyword} {segment : Text} (h : k.segment? = some segment)
    (name : Text) :
    (Target.path? "GET" (47 :: segment ++ 47 :: Target.escape name)).bind ofPath? =
      if name = [] ∨ 47 ∈ name then none else page? k name := by
  have htarget : 47 :: segment ++ 47 :: Target.escape name =
      Target.escape (47 :: segment ++ 47 :: name) := by
    rw [Target.escape_append, Target.escape_cons 47 name]
    cases k <;> cases h <;> rfl
  rw [htarget, Target.path?_escape rfl, Option.bind_some, ofPath?_segment h]

end Route

end RecordSchema
