import RecordSchema.Proofs.Model.Labelled
import RecordSchema.Proofs.Text.Glyph
import RecordSchema.Store.Library

/-!
# Symbols

A symbol is made of a label by turning its hyphens into underscores, and an underscore is put in
front if it does not start with a letter. The underscore in front makes no two labels meet, as no
letter is an underscore. Labels meet in one symbol if they differ only in hyphens and underscores,
or not at all, and nothing keeps a definition from having such labels.
-/

namespace RecordSchema

open Text

namespace Naming

/-- A label with underscores for its hyphens. -/
def underscored (label : Text) : Text := label.map fun b => if b = 45 then 95 else b

/-- Whether a text starts with a letter. -/
def startsWithLetter (t : Text) : Bool :=
  match glyphs t with
  | .char c :: _ => isLetter c
  | _ => false

theorem symbol_eq (label : Text) :
    symbol label =
      if startsWithLetter (underscored label) then underscored label
      else 95 :: underscored label := by
  unfold symbol startsWithLetter
  change (match glyphs (underscored label) with
    | .char c :: _ => if isLetter c then underscored label else [95] ++ underscored label
    | _ => [95] ++ underscored label) = _
  split
  · rfl
  · rfl

/-- No text that starts with an underscore starts with a letter. -/
theorem startsWithLetter_underscore (t : Text) : startsWithLetter (95 :: t) = false := by
  have hglyphs : glyphs (95 :: t) = .char '_' :: glyphs t := glyphs_ofChar_append '_' t
  have hletter : isLetter '_' = false := by
    -- the ranges are gone through as a list, which the kernel does without looking each of them up
    rw [isLetter, inRanges, ← Array.any_toList]
    decide +kernel
  rw [startsWithLetter, hglyphs]
  exact hletter

theorem symbol_eq_symbol_iff {label other : Text} :
    symbol label = symbol other ↔ underscored label = underscored other := by
  constructor
  · intro h
    rw [symbol_eq, symbol_eq] at h
    split at h
    · next hletter =>
        split at h
        · exact h
        · rw [h, startsWithLetter_underscore] at hletter
          cases hletter
    · split at h
      · next hletter =>
          rw [← h, startsWithLetter_underscore] at hletter
          cases hletter
      · exact List.tail_eq_of_cons_eq h
  · intro h
    rw [symbol_eq, symbol_eq, h]

theorem nodup_map_symbol_iff (labels : List Text) :
    (labels.map symbol).Nodup ↔ (labels.map underscored).Nodup := by
  induction labels with
  | nil => exact Iff.rfl
  | cons label rest ih =>
      simp only [List.map_cons, List.nodup_cons, List.mem_map, symbol_eq_symbol_iff, ih]

end Naming

namespace LabelledValue

/-- How the symbols of values come from the keys of a definition. They are told apart just as the
labels are, where a hyphen counts as an underscore. -/
structure AreNamed (d : Definition) (values : List LabelledValue) : Prop where
  labels_eq : d.body.pairs?.map (fun pairs => pairs.map fun pair => pair.1.node.value) =
    some (values.map LabelledValue.label)
  symbols_eq : values.map LabelledValue.symbol = (values.map LabelledValue.label).map Naming.symbol
  eq_iff : ∀ v ∈ values, ∀ w ∈ values,
    v.symbol = w.symbol ↔ Naming.underscored v.label = Naming.underscored w.label
  nodup_iff : (values.map LabelledValue.symbol).Nodup ↔
    ((values.map LabelledValue.label).map Naming.underscored).Nodup

theorem areNamed_of_forall₂ {valueKeys : List Text} {d : Definition}
    {pairs : List (Yaml.Tree × Yaml.Tree)} {values : List LabelledValue}
    (hpairs : d.body.pairs? = some pairs) (h : List.Forall₂ (IsOf valueKeys) pairs values) :
    AreNamed d values := by
  have hlabels : pairs.map (fun pair => pair.1.node.value) = values.map LabelledValue.label := by
    rw [← List.forall₂_eq_eq_eq, List.forall₂_map_left_iff, List.forall₂_map_right_iff]
    exact h.imp fun _ _ hv => hv.label_eq.symm
  have hsymbol : ∀ v ∈ values, v.symbol = Naming.symbol v.label := by
    intro v hv
    obtain ⟨_, _, hof⟩ := exists_of_forall₂_left h.flip v hv
    exact hof.symbol_eq
  have hsymbols : values.map LabelledValue.symbol =
      (values.map LabelledValue.label).map Naming.symbol := by
    rw [List.map_map]
    exact List.map_congr_left hsymbol
  refine ⟨by rw [hpairs, Option.map_some, hlabels], hsymbols, fun v hv w hw => ?_, ?_⟩
  · rw [hsymbol v hv, hsymbol w hw, Naming.symbol_eq_symbol_iff]
  · rw [hsymbols, Naming.nodup_map_symbol_iff]

end LabelledValue

namespace Model

/-- The values of every enum and bitmask of a model have the labels of a definition, and their
symbols differ just where the labels do when hyphens count as underscores. -/
theorem areNamed_of_resolve {p : Program} {m : Model} (h : resolve p = .ok m) :
    (∀ e ∈ m.allEnums, ∃ n ∈ p.namespaces, ∃ d ∈ n.own.definitions, d.keyword = .enum ∧
      e.key = d.key ∧ LabelledValue.AreNamed d e.values) ∧
    ∀ b ∈ m.allBitmasks, ∃ n ∈ p.namespaces, ∃ d ∈ n.own.definitions, d.keyword = .bitmask ∧
      b.key = d.key ∧ LabelledValue.AreNamed d b.values := by
  constructor
  · intro e he
    obtain ⟨n, d, hs, hk, hresolve⟩ := (mem_allEnums h).mp he
    obtain ⟨hn, hd, _⟩ := Program.mem_steps.mp hs
    obtain ⟨pairs, hpairs, hvalues⟩ := Enumeration.forall₂_of_resolve hresolve
    exact ⟨n, hn, d, hd, hk, (Enumeration.resolve_eq_ok hresolve).1,
      LabelledValue.areNamed_of_forall₂ hpairs hvalues⟩
  · intro b hb
    obtain ⟨n, d, hs, hk, hresolve⟩ := (mem_allBitmasks h).mp hb
    obtain ⟨hn, hd, _⟩ := Program.mem_steps.mp hs
    obtain ⟨pairs, hpairs, hvalues⟩ := Bitmask.forall₂_of_resolve hresolve
    exact ⟨n, hn, d, hd, hk, (Bitmask.resolve_eq_ok hresolve).1,
      LabelledValue.areNamed_of_forall₂ hpairs hvalues⟩

/-- An enum with labels that differ in a hyphen, and a bitmask with a label that is given twice. -/
def meetingLabels : Library :=
  .ofList [("a.yaml", "Enum E: {a-b: 1, a_b: 2}\nBitmask M: {x: 0, x: 1}\n")]

theorem areNamed_of_resolve_meeting :
    ∃ p m, (Program.load meetingLabels.source "a.yaml").1 = .ok p ∧ resolve p = .ok m ∧
      (m.allEnums.map fun e => e.values.map LabelledValue.symbol) =
        ([["a_b", "a_b"]] : List (List Text)) ∧
      (m.allBitmasks.map fun b => b.values.map LabelledValue.symbol) =
        ([["x", "x"]] : List (List Text)) ∧
      (∀ e ∈ m.allEnums, ∃ n ∈ p.namespaces, ∃ d ∈ n.own.definitions, d.keyword = .enum ∧
        e.key = d.key ∧ LabelledValue.AreNamed d e.values) ∧
      ∀ b ∈ m.allBitmasks, ∃ n ∈ p.namespaces, ∃ d ∈ n.own.definitions, d.keyword = .bitmask ∧
        b.key = d.key ∧ LabelledValue.AreNamed d b.values := by
  have hok : (do
      let p ← (Program.load meetingLabels.source "a.yaml").1.toOption
      let m ← (resolve p).toOption
      return (m.allEnums.map fun e => e.values.map LabelledValue.symbol,
        m.allBitmasks.map fun b => b.values.map LabelledValue.symbol)) =
        some (([["a_b", "a_b"]] : List (List Text)), ([["x", "x"]] : List (List Text))) := by
    decide +kernel
  obtain ⟨p, hp, hok⟩ := Option.bind_eq_some_iff.mp hok
  obtain ⟨m, hm, hok⟩ := Option.bind_eq_some_iff.mp hok
  obtain ⟨henums, hbitmasks⟩ := Prod.mk.inj (Option.some.inj hok)
  have hresolve := eq_ok_of_toOption_eq_some hm
  exact ⟨p, m, eq_ok_of_toOption_eq_some hp, hresolve, henums, hbitmasks,
    areNamed_of_resolve hresolve⟩

end Model

end RecordSchema
