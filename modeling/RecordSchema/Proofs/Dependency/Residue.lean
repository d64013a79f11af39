import RecordSchema.Proofs.Dependency.Depth
import RecordSchema.Schema.Error

/-!
# What cannot be ordered

The rounds leave the greatest set of vertices each of which needs another one of the set. Following
needs inside a finite set leads to a cycle, and whatever leads to a cycle is held back in every
round, so the vertices that are left are exactly those from which dependencies lead to a cycle.
Their names, each once and in order, are what the error names.
-/

namespace RecordSchema

open Relation

/-- In a finite list from each of whose elements a step leads to another one, every element leads
to one that leads back to itself. -/
theorem exists_reaches_cycle_of_forall_exists {α : Type} {r : α → α → Prop} {s : List α}
    (h : ∀ a ∈ s, ∃ b ∈ s, r a b) {a : α} (ha : a ∈ s) :
    ∃ b, ReflTransGen r a b ∧ TransGen r b b := by
  classical
  -- What is reached from the element is closed under steps too.
  let reached := s.filter fun b => decide (ReflTransGen r a b)
  have hmem : ∀ b, b ∈ reached ↔ b ∈ s ∧ ReflTransGen r a b := by
    intro b
    rw [List.mem_filter, decide_eq_true_eq]
  have hne : reached ≠ [] := List.ne_nil_of_mem ((hmem a).mpr ⟨ha, .refl⟩)
  have hstep : ∀ b ∈ reached, ∃ c ∈ reached, r b c := by
    intro b hb
    obtain ⟨hb, hpath⟩ := (hmem b).mp hb
    obtain ⟨c, hc, hbc⟩ := h b hb
    exact ⟨c, (hmem c).mpr ⟨hc, hpath.tail hbc⟩, hbc⟩
  obtain ⟨b, hb, hcycle⟩ := exists_cycle_of_forall_exists hne hstep
  exact ⟨b, ((hmem b).mp hb).2, hcycle⟩

theorem nodup_eraseDups {α : Type} [BEq α] [LawfulBEq α] (l : List α) : l.eraseDups.Nodup := by
  induction hlength : l.length using Nat.strongRecOn generalizing l with
  | ind n ih =>
      cases l with
      | nil => exact List.nodup_nil
      | cons a rest =>
          have hle := List.length_filter_le (fun b => !b == a) rest
          rw [List.length_cons] at hlength
          rw [List.eraseDups_cons, List.nodup_cons, List.mem_eraseDups]
          exact ⟨by simp, ih _ (by omega) _ rfl⟩

/-- Ascending texts are the only ones with their members. -/
theorem eq_of_mem_iff_of_ascending {ns ns' : List Text} (h : ns.Pairwise (· < ·))
    (h' : ns'.Pairwise (· < ·)) (hmem : ∀ n, n ∈ ns ↔ n ∈ ns') : ns = ns' := by
  have hnodup : ∀ {ns : List Text}, ns.Pairwise (· < ·) → ns.Nodup := by
    intro ns hns
    refine hns.imp ?_
    rintro a b hab rfl
    exact List.lt_irrefl a hab
  have hperm : ns.Perm ns' := (List.perm_ext_iff_of_nodup (hnodup h) (hnodup h')).mpr hmem
  refine hperm.eq_of_pairwise ?_ h h'
  intro a b _ _ hab hba
  exact absurd hba (List.lt_asymm hab)

namespace SchemaError

/-- The names of a cycle stand once each, in ascending order. -/
theorem exists_cycle_eq (names : List Text) :
    ∃ sorted, cycle names = .cyclic sorted ∧ sorted.Pairwise (· < ·) ∧
      ∀ n, n ∈ sorted ↔ n ∈ names := by
  refine ⟨Text.sort names.eraseDups, rfl, ?_, fun n => ?_⟩
  · have hle : (Text.sort names.eraseDups).Pairwise fun a b => Text.le a b = true := by
      refine List.pairwise_mergeSort ?_ ?_ _
      · intro a b c hab hbc
        exact decide_eq_true (List.le_trans (of_decide_eq_true hab) (of_decide_eq_true hbc))
      · intro a b
        simpa [Text.le] using List.le_total a b
    have hnodup : (Text.sort names.eraseDups).Nodup :=
      (List.mergeSort_perm _ _).nodup_iff.mpr (nodup_eraseDups names)
    refine (hle.and hnodup).imp ?_
    rintro a b ⟨hab, hne⟩
    exact Std.lt_of_le_of_ne (of_decide_eq_true hab) hne
  · rw [Text.sort, List.mem_mergeSort, List.mem_eraseDups]

theorem cycle_eq_cyclic_iff {names sorted : List Text} :
    cycle names = .cyclic sorted ↔ sorted.Pairwise (· < ·) ∧ ∀ n, n ∈ sorted ↔ n ∈ names := by
  obtain ⟨sorted', heq, hlt, hmem⟩ := exists_cycle_eq names
  rw [heq]
  constructor
  · intro h
    cases h
    exact ⟨hlt, hmem⟩
  · rintro ⟨hlt', hmem'⟩
    rw [eq_of_mem_iff_of_ascending hlt hlt' fun n => (hmem n).trans (hmem' n).symm]

end SchemaError

namespace Vertex

/-- Whether a path of dependencies leads from a key to one that depends on itself through others. -/
def ReachesCycle (vs : List Vertex) (k : Text) : Prop :=
  ∃ l, ReflTransGen (Edge vs) k l ∧ TransGen (Edge vs) l l

section Rounds

variable {pending rest : List Vertex}

/-- Whether vertices are what the rounds leave of those that are pending. -/
structure IsResidue (pending rest : List Vertex) : Prop where
  subset : rest ⊆ pending
  needs : ∀ v ∈ rest, ∃ w ∈ rest, v.Needs w
  /-- No other vertices need each other. -/
  greatest : ∀ held : Vertex → Prop, (∀ v, held v → v ∈ pending ∧ ∃ w, held w ∧ v.Needs w) →
    ∀ v, held v → v ∈ rest

/-- When a round takes nothing, everything that is pending needs something that is. -/
theorem isResidue_of_ready_eq_nil (h : ready pending = []) : IsResidue pending pending := by
  refine ⟨List.Subset.refl _, ?_, fun held hheld v hv => (hheld v hv).1⟩
  intro v hv
  by_contra hno
  have hready : v ∈ ready pending := mem_ready.mpr ⟨hv, fun w hw hn => hno ⟨w, hw, hn⟩⟩
  rw [h] at hready
  cases hready

/-- A round holds back whatever needs each other. -/
theorem IsResidue.of_remaining (h : IsResidue (remaining pending) rest) :
    IsResidue pending rest := by
  refine ⟨fun v hv => (mem_remaining.mp (h.subset hv)).1, h.needs, ?_⟩
  intro held hheld
  refine h.greatest held fun v hv => ?_
  obtain ⟨hpending, w, hw, hneeds⟩ := hheld v hv
  exact ⟨mem_remaining.mpr ⟨hpending, w, (hheld w hw).1, hneeds⟩, w, hw, hneeds⟩

theorem IsResidue.of_perm {met : List Vertex} (h : IsResidue met rest) (hperm : met.Perm pending) :
    IsResidue pending rest := by
  refine ⟨fun v hv => hperm.mem_iff.mp (h.subset hv), h.needs, ?_⟩
  intro held hheld
  refine h.greatest held fun v hv => ?_
  exact ⟨hperm.mem_iff.mpr (hheld v hv).1, (hheld v hv).2⟩

theorem Runs.isResidue (h : Runs pending (.error rest)) : IsResidue pending rest := by
  generalize hresult : (.error rest : Except (List Vertex) (List Vertex)) = result at h
  induction h with
  | done => cases hresult
  | stuck hperm _ hready =>
      cases hresult
      exact (isResidue_of_ready_eq_nil hready).of_perm hperm
  | round hperm _ _ ih =>
      exact (ih (map_eq_error_iff.mp hresult.symm).symm).of_remaining.of_perm hperm

end Rounds

section Cycles

variable {vs rest : List Vertex}

theorem ReachesCycle.exists_edge {k : Text} (h : ReachesCycle vs k) :
    ∃ l, Edge vs k l ∧ ReachesCycle vs l := by
  obtain ⟨l, hpath, hcycle⟩ := h
  rcases hpath.cases_head with rfl | ⟨m, hedge, hpath⟩
  · obtain ⟨m, hedge, hback⟩ := (TransGen.head'_iff).mp hcycle
    exact ⟨m, hedge, k, hback, hcycle⟩
  · exact ⟨m, hedge, l, hpath, hcycle⟩

/-- What is left are the vertices that count and lead to a cycle. -/
theorem IsResidue.mem_iff (h : IsResidue (distinct vs) rest) {v : Vertex} :
    v ∈ rest ↔ Counts vs v ∧ ReachesCycle vs v.key := by
  have hkeys := nodup_key_distinct vs
  constructor
  · intro hv
    have hedge : ∀ a b, (a ∈ rest ∧ b ∈ rest ∧ a.Needs b) → Edge vs a.key b.key := by
      rintro a b ⟨ha, hb, hneeds⟩
      rw [← edge_distinct, edge_iff hkeys (h.subset ha)]
      exact ⟨b, h.subset hb, rfl, hneeds⟩
    have hstep : ∀ a ∈ rest, ∃ b ∈ rest, a ∈ rest ∧ b ∈ rest ∧ a.Needs b := by
      intro a ha
      obtain ⟨b, hb, hneeds⟩ := h.needs a ha
      exact ⟨b, hb, ha, hb, hneeds⟩
    obtain ⟨w, hpath, hcycle⟩ := exists_reaches_cycle_of_forall_exists hstep hv
    exact ⟨mem_distinct.mp (h.subset hv), w.key, hpath.lift key hedge, hcycle.lift key hedge⟩
  · rintro ⟨hcounts, hreaches⟩
    refine h.greatest (fun w => Counts vs w ∧ ReachesCycle vs w.key) ?_ v ⟨hcounts, hreaches⟩
    rintro w ⟨hw, hreaches⟩
    obtain ⟨l, hedge, hreaches⟩ := hreaches.exists_edge
    rw [← edge_distinct, edge_iff hkeys (mem_distinct.mpr hw)] at hedge
    obtain ⟨u, hu, rfl, hneeds⟩ := hedge
    exact ⟨mem_distinct.mpr hw, u, ⟨mem_distinct.mp hu, hreaches⟩, hneeds⟩

end Cycles

/-- If vertices cannot be ordered, the error names those from which dependencies lead to a cycle,
and no others, once each and in order, whatever order the rounds meet vertices in. -/
theorem names_of_order_eq_error {vs rest : List Vertex} (h : order vs = .error rest) :
    ∃ names, SchemaError.cycle (rest.map name) = .cyclic names ∧
      names.Pairwise (· < ·) ∧
      (∀ n, n ∈ names ↔ ∃ v, Counts vs v ∧ v.name = n ∧ ReachesCycle vs v.key) ∧
      ∀ rest', Runs (distinct vs) (.error rest') →
        SchemaError.cycle (rest'.map name) = .cyclic names := by
  have hruns : Runs (distinct vs) (.error rest) := h ▸ runs_rounds (length_distinct_le vs)
  obtain ⟨names, heq, hlt, hmem⟩ := SchemaError.exists_cycle_eq (rest.map name)
  refine ⟨names, heq, hlt, fun n => ?_, fun rest' hruns' => ?_⟩
  · rw [hmem, List.mem_map]
    simp only [hruns.isResidue.mem_iff]
    constructor
    · rintro ⟨v, ⟨hcounts, hreaches⟩, hname⟩
      exact ⟨v, hcounts, hname, hreaches⟩
    · rintro ⟨v, hcounts, hname, hreaches⟩
      exact ⟨v, ⟨hcounts, hreaches⟩, hname⟩
  · refine SchemaError.cycle_eq_cyclic_iff.mpr ⟨hlt, fun n => ?_⟩
    rw [hmem, List.mem_map, List.mem_map]
    simp only [hruns.isResidue.mem_iff, hruns'.isResidue.mem_iff]

/-- Two vertices that depend on each other and two behind them that have one name. The others can
be ordered: one depends on itself and on no vertex, and one replaces an earlier vertex that could
not. -/
def entangled : List Vertex :=
  [⟨"x", "Old", ["a"]⟩, ⟨"b", "B", ["a", "b"]⟩, ⟨"a", "A", ["b"]⟩, ⟨"c", "C", ["c", "y"]⟩,
    ⟨"d", "D", ["a"]⟩, ⟨"e", "D", ["d", "c"]⟩, ⟨"x", "X", ["c"]⟩]

/-- The names of what is left of them. -/
def entangledNames : List Text := ["A", "B", "D"]

theorem names_of_order_eq_error_entangled :
    ∃ rest, order entangled = .error rest ∧
      SchemaError.cycle (rest.map name) = .cyclic entangledNames ∧
      (∀ n, n ∈ entangledNames ↔
        ∃ v, Counts entangled v ∧ v.name = n ∧ ReachesCycle entangled v.key) ∧
      ∀ rest', Runs (distinct entangled) (.error rest') →
        SchemaError.cycle (rest'.map name) = .cyclic entangledNames := by
  have hstuck : (match order entangled with
      | .ok _ => none
      | .error rest => some (rest.map name)) = some (["B", "A", "D", "D"] : List Text) := by
    decide +kernel
  cases h : order entangled with
  | ok sorted =>
      rw [h] at hstuck
      cases hstuck
  | error rest =>
      rw [h] at hstuck
      have hsorted : entangledNames.Pairwise (· < ·) := by decide +kernel
      have hnames : SchemaError.cycle (rest.map name) = .cyclic entangledNames := by
        refine SchemaError.cycle_eq_cyclic_iff.mpr ⟨hsorted, fun n => ?_⟩
        rw [Option.some.inj hstuck]
        simp only [entangledNames, List.mem_cons, List.not_mem_nil, or_false]
        tauto
      obtain ⟨names, heq, _, hmem, hruns⟩ := names_of_order_eq_error h
      cases heq.symm.trans hnames
      exact ⟨rest, rfl, hnames, hmem, hruns⟩

end Vertex

end RecordSchema
