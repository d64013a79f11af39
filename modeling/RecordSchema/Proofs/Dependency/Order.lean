import Mathlib.Data.List.Nodup
import Mathlib.Data.Set.Finite.List
import Mathlib.Order.Preorder.Finite
import Mathlib.Order.WellFounded
import Mathlib.Logic.Relation
import RecordSchema.Dependency.Order
import RecordSchema.Proofs.Outcome

/-!
# Dependency order and cycles

The rounds take every vertex exactly when no vertex depends on itself through others. What is taken
is ordered so that no vertex depends on a later one.
-/

namespace RecordSchema

open Relation

/-- In a finite list from each of whose elements a step leads to another one, some element leads
back to itself. -/
theorem exists_cycle_of_forall_exists {α : Type} {r : α → α → Prop} {s : List α} (hne : s ≠ [])
    (h : ∀ a ∈ s, ∃ b ∈ s, r a b) : ∃ a ∈ s, TransGen r a a := by
  by_contra hno
  let below (b a : {x // x ∈ s}) : Prop := TransGen r a.1 b.1
  have htrans : IsTrans {x // x ∈ s} below := ⟨fun _ _ _ hab hbc => hbc.trans hab⟩
  have hirrefl : Std.Irrefl below := ⟨fun a ha => hno ⟨a.1, a.2, ha⟩⟩
  have hfinite : Finite {x // x ∈ s} := (List.finite_toSet s).to_subtype
  have hwf : WellFounded below := Finite.wellFounded_of_trans_of_irrefl below
  obtain ⟨x, hx⟩ := List.exists_mem_of_ne_nil s hne
  obtain ⟨a, _, hmin⟩ := hwf.has_min Set.univ ⟨⟨x, hx⟩, trivial⟩
  obtain ⟨b, hb, hab⟩ := h a.1 a.2
  exact hmin ⟨b, hb⟩ trivial (.single hab)

/-- Where every step leads down, none leads back. -/
theorem not_transGen_of_lt {α : Type} {r : α → α → Prop} {f : α → Nat}
    (h : ∀ {a b}, r a b → f b < f a) (a : α) : ¬ TransGen r a a := by
  have hdown : ∀ b, TransGen r a b → f b < f a := by
    intro b hb
    induction hb with
    | single hs => exact h hs
    | tail _ hs ih => exact (h hs).trans ih
  exact fun hcycle => absurd (hdown a hcycle) (lt_irrefl _)

namespace Vertex

/-- Whether a vertex depends on another one. -/
def Needs (v w : Vertex) : Prop := w.key ≠ v.key ∧ w.key ∈ v.dependencies

theorem isBlocked_iff {pending : List Vertex} {v : Vertex} :
    isBlocked pending v = true ↔ ∃ w ∈ pending, v.Needs w := by
  simp [isBlocked, Needs]

theorem mem_ready {pending : List Vertex} {v : Vertex} :
    v ∈ ready pending ↔ v ∈ pending ∧ ∀ w ∈ pending, ¬ v.Needs w := by
  rw [ready, List.mem_mergeSort, List.mem_filter, Bool.not_eq_true', ← Bool.not_eq_true,
    isBlocked_iff]
  simp

theorem mem_remaining {pending : List Vertex} {v : Vertex} :
    v ∈ remaining pending ↔ v ∈ pending ∧ ∃ w ∈ pending, v.Needs w := by
  rw [remaining, List.mem_filter, isBlocked_iff]

theorem ready_append_remaining_perm (pending : List Vertex) :
    (ready pending ++ remaining pending).Perm pending := by
  refine ((List.mergeSort_perm _ _).append_right _).trans ?_
  exact (List.perm_append_comm).trans (List.filter_append_perm _ pending)

theorem length_remaining_lt {pending : List Vertex} (h : ready pending ≠ []) :
    (remaining pending).length < pending.length := by
  have hlen := (ready_append_remaining_perm pending).length_eq
  have hpos := List.length_pos_of_ne_nil h
  rw [List.length_append] at hlen
  omega

theorem rounds_succ_of_ne_nil {fuel : Nat} {pending : List Vertex} (hne : pending ≠ []) :
    rounds (fuel + 1) pending =
      if ready pending = [] then .error pending
      else (rounds fuel (remaining pending)).map (ready pending ++ ·) := by
  rw [rounds]
  simp only [List.isEmpty_iff, hne, if_false]

/-- What the rounds take are all vertices, none of which depends on a later one. -/
theorem rounds_eq_ok {fuel : Nat} {pending sorted : List Vertex}
    (h : rounds fuel pending = .ok sorted) :
    sorted.Perm pending ∧ sorted.Pairwise fun v w => ¬ v.Needs w := by
  induction fuel generalizing pending sorted with
  | zero =>
      rw [rounds] at h
      split at h
      · next hempty =>
          cases h
          rw [List.isEmpty_iff.mp hempty]
          exact ⟨.nil, .nil⟩
      · cases h
  | succ fuel ih =>
      by_cases hne : pending = []
      · subst hne
        cases h
        exact ⟨.nil, .nil⟩
      · rw [rounds_succ_of_ne_nil hne] at h
        split at h
        · cases h
        · obtain ⟨rest, hrest, rfl⟩ := map_eq_ok_iff.mp h
          obtain ⟨hperm, hpair⟩ := ih hrest
          refine ⟨(hperm.append_left _).trans (ready_append_remaining_perm pending), ?_⟩
          rw [List.pairwise_append]
          refine ⟨?_, hpair, ?_⟩
          · refine List.pairwise_of_forall_mem_list ?_
            intro v hv w hw
            exact (mem_ready.mp hv).2 w (mem_ready.mp hw).1
          · intro v hv w hw
            exact (mem_ready.mp hv).2 w (mem_remaining.mp (hperm.mem_iff.mp hw)).1

/-- What the rounds leave depends on itself: every vertex needs another one of those that are
left. -/
theorem rounds_eq_error {fuel : Nat} {pending rest : List Vertex} (hfuel : pending.length ≤ fuel)
    (h : rounds fuel pending = .error rest) :
    rest ≠ [] ∧ rest ⊆ pending ∧ ∀ v ∈ rest, ∃ w ∈ rest, v.Needs w := by
  induction fuel generalizing pending with
  | zero =>
      have hnil : pending = [] := List.length_eq_zero_iff.mp (Nat.le_zero.mp hfuel)
      subst hnil
      cases h
  | succ fuel ih =>
      by_cases hne : pending = []
      · subst hne
        cases h
      · rw [rounds_succ_of_ne_nil hne] at h
        split at h
        · next hready =>
            cases h
            refine ⟨hne, List.Subset.refl _, ?_⟩
            intro v hv
            by_contra hno
            have : v ∈ ready rest := mem_ready.mpr ⟨hv, fun w hw hn => hno ⟨w, hw, hn⟩⟩
            rw [hready] at this
            cases this
        · next hready =>
            cases hr : rounds fuel (remaining pending) with
            | ok more =>
                rw [hr] at h
                cases h
            | error left =>
                rw [hr] at h
                cases h
                have hlt := length_remaining_lt hready
                obtain ⟨hne', hsub, hall⟩ := ih (by omega) hr
                exact ⟨hne', fun v hv => (mem_remaining.mp (hsub hv)).1, hall⟩

/-- In a list ordered by its dependencies what is needed stands before what needs it. -/
theorem idxOf_lt_of_needs {sorted : List Vertex} (h : sorted.Pairwise fun v w => ¬ v.Needs w)
    {v w : Vertex} (hv : v ∈ sorted) (hw : w ∈ sorted) (hneeds : v.Needs w) :
    sorted.idxOf w < sorted.idxOf v := by
  by_contra hle
  have hne : sorted.idxOf v ≠ sorted.idxOf w := by
    intro heq
    have hvw := (List.idxOf_inj hv).mp heq
    exact hneeds.1 (by rw [hvw])
  have hlt : sorted.idxOf v < sorted.idxOf w := by omega
  have hpair := List.pairwise_iff_getElem.mp h _ _ (List.idxOf_lt_length_of_mem hv)
    (List.idxOf_lt_length_of_mem hw) hlt
  rw [List.getElem_idxOf, List.getElem_idxOf] at hpair
  exact hpair hneeds

/-- A list ordered by its dependencies has no vertex that needs itself through others. -/
theorem not_transGen_of_pairwise {sorted : List Vertex}
    (h : sorted.Pairwise fun v w => ¬ v.Needs w) (v : Vertex) :
    ¬ TransGen (fun v w => v ∈ sorted ∧ w ∈ sorted ∧ v.Needs w) v v := by
  apply not_transGen_of_lt (f := fun w => sorted.idxOf w)
  rintro a b ⟨ha, hb, hneeds⟩
  exact idxOf_lt_of_needs h ha hb hneeds

theorem length_distinct_le (vs : List Vertex) : (distinct vs).length ≤ vs.length := by
  induction vs with
  | nil => exact le_refl _
  | cons v rest ih =>
      rw [distinct]
      split
      · exact ih.trans (Nat.le_succ _)
      · exact Nat.succ_le_succ ih

theorem distinct_eq_self {vs : List Vertex} (h : (vs.map Vertex.key).Nodup) : distinct vs = vs := by
  induction vs with
  | nil => rfl
  | cons v rest ih =>
      obtain ⟨hnot, hrest⟩ := List.nodup_cons.mp h
      have hany : rest.any (fun w => w.key == v.key) = false := by
        rw [List.any_eq_false]
        intro w hw heq
        exact hnot (List.mem_map.mpr ⟨w, hw, by simpa using heq⟩)
      rw [distinct, hany, ih hrest]
      rfl

/-- Vertices cannot be ordered exactly when one of them needs itself through others. -/
theorem order_eq_error_iff (vs : List Vertex) :
    (∃ rest, order vs = .error rest) ↔
      ∃ v, TransGen (fun v w => v ∈ distinct vs ∧ w ∈ distinct vs ∧ v.Needs w) v v := by
  constructor
  · rintro ⟨rest, h⟩
    obtain ⟨hne, hsub, hall⟩ := rounds_eq_error (length_distinct_le vs) h
    have hstep : ∀ v ∈ rest, ∃ w ∈ rest,
        v ∈ distinct vs ∧ w ∈ distinct vs ∧ v.Needs w := by
      intro v hv
      obtain ⟨w, hw, hneeds⟩ := hall v hv
      exact ⟨w, hw, hsub hv, hsub hw, hneeds⟩
    obtain ⟨v, _, hcycle⟩ := exists_cycle_of_forall_exists hne hstep
    exact ⟨v, hcycle⟩
  · rintro ⟨v, hcycle⟩
    cases h : order vs with
    | error rest => exact ⟨rest, rfl⟩
    | ok sorted =>
        obtain ⟨hperm, hpair⟩ := rounds_eq_ok h
        have hcycle' : TransGen (fun v w => v ∈ sorted ∧ w ∈ sorted ∧ v.Needs w) v v := by
          refine TransGen.mono ?_ v v hcycle
          intro a b hab
          exact ⟨hperm.mem_iff.mpr hab.1, hperm.mem_iff.mpr hab.2.1, hab.2.2⟩
        exact absurd hcycle' (not_transGen_of_pairwise hpair v)

theorem precedes_trans (u v w : Vertex) (huv : precedes u v = true) (hvw : precedes v w = true) :
    precedes u w = true := by
  unfold precedes Text.le at *
  by_cases hu : u.name = v.name
  · by_cases hw : v.name = w.name
    · rw [if_pos hu] at huv
      rw [if_pos hw] at hvw
      rw [if_pos (hu.trans hw)]
      exact decide_eq_true (List.le_trans (of_decide_eq_true huv) (of_decide_eq_true hvw))
    · rw [if_neg hw] at hvw
      rwa [hu, if_neg hw]
  · by_cases hw : v.name = w.name
    · rw [if_neg hu] at huv
      rwa [← hw, if_neg hu]
    · rw [if_neg hu, decide_eq_true_eq] at huv
      rw [if_neg hw, decide_eq_true_eq] at hvw
      have hne : u.name ≠ w.name := fun heq => hw (List.le_antisymm hvw (heq ▸ huv))
      rw [if_neg hne]
      exact decide_eq_true (List.le_trans huv hvw)

theorem precedes_total (v w : Vertex) : (precedes v w || precedes w v) = true := by
  rw [Bool.or_eq_true]
  unfold precedes Text.le
  by_cases h : v.name = w.name
  · simpa only [h, if_true, decide_eq_true_eq] using List.le_total v.key w.key
  · simpa only [h, Ne.symm h, if_false, decide_eq_true_eq] using List.le_total v.name w.name

theorem key_eq_of_precedes {v w : Vertex} (hvw : precedes v w = true) (hwv : precedes w v = true) :
    v.key = w.key := by
  unfold precedes Text.le at hvw hwv
  by_cases h : v.name = w.name
  · rw [if_pos h, decide_eq_true_eq] at hvw
    rw [if_pos h.symm, decide_eq_true_eq] at hwv
    exact List.le_antisymm hvw hwv
  · rw [if_neg h, decide_eq_true_eq] at hvw
    rw [if_neg (Ne.symm h), decide_eq_true_eq] at hwv
    exact absurd (List.le_antisymm hvw hwv) h

section Permuted

variable {pending pending' : List Vertex} (hperm : pending'.Perm pending)

include hperm

theorem isBlocked_of_perm : isBlocked pending' = isBlocked pending := by
  funext v
  exact hperm.any_eq

theorem remaining_of_perm : (remaining pending').Perm (remaining pending) := by
  rw [remaining, remaining, isBlocked_of_perm hperm]
  exact hperm.filter _

/-- A round takes the same in the same order, whatever the order of the vertices. -/
theorem ready_of_perm (hkeys : (pending.map key).Nodup) : ready pending' = ready pending := by
  have hsorted : ∀ vs : List Vertex,
      (vs.mergeSort precedes).Pairwise fun v w => precedes v w = true :=
    List.pairwise_mergeSort precedes_trans precedes_total
  unfold ready
  rw [isBlocked_of_perm hperm]
  refine List.Perm.eq_of_pairwise ?_ (hsorted _) (hsorted _) ?_
  · intro v w hv hw hvw hwv
    have hv := hperm.mem_iff.mp (List.mem_of_mem_filter (List.mem_mergeSort.mp hv))
    have hw := List.mem_of_mem_filter (List.mem_mergeSort.mp hw)
    exact List.inj_on_of_nodup_map hkeys hv hw (key_eq_of_precedes hvw hwv)
  · exact (List.mergeSort_perm _ _).trans ((hperm.filter _).trans (List.mergeSort_perm _ _).symm)

end Permuted

/-- Vertices that can be ordered have one order, whatever the order in which they are given. -/
theorem rounds_of_perm {fuel : Nat} {pending pending' sorted : List Vertex}
    (hperm : pending'.Perm pending) (hkeys : (pending.map key).Nodup)
    (h : rounds fuel pending = .ok sorted) : rounds fuel pending' = .ok sorted := by
  induction fuel generalizing pending pending' sorted with
  | zero =>
      rw [rounds] at h ⊢
      split at h
      · next hempty => rwa [hperm.isEmpty_eq, if_pos hempty]
      · cases h
  | succ fuel ih =>
      by_cases hne : pending = []
      · subst hne
        cases hperm.eq_nil
        exact h
      · have hne' : pending' ≠ [] := fun hnil => hne (hnil ▸ hperm).symm.eq_nil
        rw [rounds_succ_of_ne_nil hne] at h
        rw [rounds_succ_of_ne_nil hne', ready_of_perm hperm hkeys]
        split at h
        · cases h
        · next hready =>
            obtain ⟨rest, hrest, rfl⟩ := map_eq_ok_iff.mp h
            -- What a round leaves is permuted again, and its keys still differ.
            have hsub : (remaining pending).Sublist pending := List.filter_sublist
            have hkeys' := (hsub.map key).nodup hkeys
            rw [if_neg hready]
            exact map_eq_ok_iff.mpr ⟨rest, ih (remaining_of_perm hperm) hkeys' hrest, rfl⟩

end Vertex

end RecordSchema
