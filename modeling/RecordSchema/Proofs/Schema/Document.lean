import RecordSchema.Proofs.Keyed
import RecordSchema.Proofs.Outcome
import RecordSchema.Schema.Document

/-!
# Keys of a parsed document

Definitions of a parsed document are named by identifiers. An identifier has no dot, so a name that
is qualified by a schema name can be taken apart again.
-/

namespace RecordSchema

open Text

theorem isIdentifierRest_of_mem {name : Text} (h : isIdentifier name = true) :
    ∀ b ∈ name, isIdentifierRest b = true := by
  cases name with
  | nil => simp
  | cons a rest =>
      simp only [isIdentifier, Bool.and_eq_true, List.all_eq_true] at h
      intro b hb
      rcases List.mem_cons.mp hb with rfl | hb
      · simp [isIdentifierRest, h.1]
      · exact h.2 b hb

theorem dot_notMem_of_isIdentifier {name : Text} (h : isIdentifier name = true) :
    (46 : UInt8) ∉ name := by
  intro hmem
  have hdot := isIdentifierRest_of_mem h 46 hmem
  exact absurd hdot (by decide)

/-- What follows the last dot is the name, so origin and name can be read off a qualified name. -/
theorem append_dot_inj {a b x y : Text} (hx : (46 : UInt8) ∉ x) (hy : (46 : UInt8) ∉ y)
    (h : a ++ 46 :: x = b ++ 46 :: y) : a = b ∧ x = y := by
  rcases List.append_eq_append_iff.mp h with ⟨c, hb, hc⟩ | ⟨c, ha, hc⟩
  · cases c with
    | nil =>
        rw [List.append_nil] at hb
        exact ⟨hb.symm, (List.cons.inj hc).2⟩
    | cons d rest =>
        have hmem : (46 : UInt8) ∈ x := by
          rw [(List.cons.inj hc).2]
          simp
        exact absurd hmem hx
  · cases c with
    | nil =>
        rw [List.append_nil] at ha
        exact ⟨ha, (List.cons.inj hc).2.symm⟩
    | cons d rest =>
        have hmem : (46 : UInt8) ∈ y := by
          rw [(List.cons.inj hc).2]
          simp
        exact absurd hmem hy

namespace Key

theorem isIdentifier_of_ofWords {ws : List Text} {key : Key} (h : ofWords ws = .ok key)
    (hk : key.keyword ≠ .imports) : isIdentifier key.name = true := by
  unfold ofWords at h
  split at h
  · split at h
    · cases h
      exact absurd rfl hk
    · cases h
  · split at h
    · cases h
    · split at h
      · next hor =>
          cases h
          exact hor.resolve_left hk
      · cases h
  · cases h

end Key

namespace Document

theorem readEntry_eq_ok {path : Text} {seen : List (Key × Nat)} {pair : Yaml.Tree × Yaml.Tree}
    {e : Entry} (h : readEntry path seen pair = .ok e) :
    Key.parse pair.1.node.value = .ok e.key := by
  unfold readEntry at h
  simp only at h
  split at h
  · cases h
  · next key hkey =>
      rw [hkey]
      split at h
      · split at h
        · cases h
          rfl
        · cases h
      · cases h
        rfl

theorem key_notMem_of_readEntry {path : Text} {seen : List (Key × Nat)}
    {pair : Yaml.Tree × Yaml.Tree} {e : Entry} (h : readEntry path seen pair = .ok e)
    (hk : e.key.keyword ≠ .imports) : e.key ∉ seen.map Prod.fst := by
  unfold readEntry at h
  simp only at h
  split at h
  · cases h
  · split at h
    · split at h
      · next himports =>
          cases h
          exact absurd himports hk
      · cases h
    · next hnone =>
        cases h
        exact lookup_eq_none_iff_not_mem.mp hnone

theorem isIdentifier_of_readEntries {path : Text} {seen : List (Key × Nat)}
    {pairs : List (Yaml.Tree × Yaml.Tree)} {es : List Entry}
    (h : readEntries path seen pairs = .ok es) :
    ∀ e ∈ es, e.key.keyword ≠ .imports → isIdentifier e.key.name = true := by
  induction pairs generalizing seen es with
  | nil =>
      cases h
      simp
  | cons pair rest ih =>
      obtain ⟨e, he, h⟩ := bind_eq_ok_iff.mp h
      obtain ⟨more, hmore, h⟩ := bind_eq_ok_iff.mp h
      cases h
      intro e' he' hk
      rcases List.mem_cons.mp he' with rfl | he'
      · exact Key.isIdentifier_of_ofWords (readEntry_eq_ok he) hk
      · exact ih hmore e' he' hk

theorem path_of_parse {path text : Text} {d : Document} (h : parse path text = .ok d) :
    d.path = path := by
  unfold parse at h
  split at h
  · cases h
  · unfold ofRoot at h
    split at h
    · cases h
      rfl
    · split at h
      · cases h
      · obtain ⟨es, _, h⟩ := bind_eq_ok_iff.mp h
        cases h
        rfl

/-- No two definitions of a document have the same key. -/
theorem nodup_key_of_readEntries {path : Text} {seen : List (Key × Nat)}
    {pairs : List (Yaml.Tree × Yaml.Tree)} {es : List Entry}
    (h : readEntries path seen pairs = .ok es) :
    ((es.filter fun e => e.key.keyword ≠ .imports).map Entry.key).Nodup ∧
      ∀ e ∈ es, e.key.keyword ≠ .imports → e.key ∉ seen.map Prod.fst := by
  induction pairs generalizing seen es with
  | nil =>
      cases h
      exact ⟨List.nodup_nil, by simp⟩
  | cons pair rest ih =>
      obtain ⟨e, he, h⟩ := bind_eq_ok_iff.mp h
      obtain ⟨more, hmore, h⟩ := bind_eq_ok_iff.mp h
      cases h
      obtain ⟨hnodup, hnew⟩ := ih hmore
      have hold : ∀ e' ∈ more, e'.key.keyword ≠ .imports → e'.key ∉ seen.map Prod.fst :=
        fun e' he' hk hmem => hnew e' he' hk (List.mem_cons_of_mem _ hmem)
      by_cases hk : e.key.keyword = .imports
      · rw [List.filter_cons_of_neg (by simpa using hk)]
        exact ⟨hnodup, List.forall_mem_cons.mpr ⟨fun hne => absurd hk hne, hold⟩⟩
      · rw [List.filter_cons_of_pos (by simpa using hk), List.map_cons]
        refine ⟨List.nodup_cons.mpr ⟨?_, hnodup⟩, ?_⟩
        · intro hmem
          obtain ⟨e', he', heq⟩ := List.mem_map.mp hmem
          obtain ⟨he', hk'⟩ := List.mem_filter.mp he'
          exact hnew e' he' (by simpa using hk') (heq ▸ List.mem_cons_self)
        · exact List.forall_mem_cons.mpr ⟨fun _ => key_notMem_of_readEntry he hk, hold⟩

theorem nodup_key_of_parse {path text : Text} {d : Document} (h : parse path text = .ok d) :
    ((d.entries.filter fun e => e.key.keyword ≠ .imports).map Entry.key).Nodup := by
  unfold parse at h
  split at h
  · cases h
  · unfold ofRoot at h
    split at h
    · cases h
      exact List.nodup_nil
    · split at h
      · cases h
      · obtain ⟨es, hes, h⟩ := bind_eq_ok_iff.mp h
        cases h
        exact (nodup_key_of_readEntries hes).1

theorem isIdentifier_of_parse {path text : Text} {d : Document} (h : parse path text = .ok d) :
    ∀ e ∈ d.entries, e.key.keyword ≠ .imports → isIdentifier e.key.name = true := by
  unfold parse at h
  split at h
  · cases h
  · unfold ofRoot at h
    split at h
    · cases h
      simp
    · split at h
      · cases h
      · obtain ⟨es, hes, h⟩ := bind_eq_ok_iff.mp h
        cases h
        exact isIdentifier_of_readEntries hes

end Document

end RecordSchema
