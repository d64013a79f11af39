import Mathlib.Data.List.Chain
import Mathlib.Order.Lattice.Nat
import RecordSchema.Proofs.Dependency.Order

/-!
# Dependency order by depth

The depth of a key is the length of the longest chain of dependencies below it. Each round takes the
vertices of one depth, so vertices come out by depth, by name among those of one depth, and by key
among equal names. This order is determined by the names and by the dependencies between keys alone:
neither the order in which vertices, dependencies or what is pending are met, nor repetitions, make
a difference.
-/

namespace RecordSchema

open Relation

namespace Vertex

/-- Whether a vertex counts in a list: no later one has its key. -/
def Counts (vs : List Vertex) (v : Vertex) : Prop :=
  ∃ before after, vs = before ++ v :: after ∧ v.key ∉ after.map key

/-- Whether a key depends on another one that some vertex has. -/
def Edge (vs : List Vertex) (k l : Text) : Prop :=
  ∃ v, Counts vs v ∧ v.key = k ∧ l ∈ v.dependencies ∧ l ∈ vs.map key ∧ l ≠ k

/-- The lengths of the chains of dependencies below a key. -/
def chainLengths (vs : List Vertex) (k : Text) : Set Nat :=
  {n | ∃ chain, (k :: chain).IsChain (Edge vs) ∧ chain.length = n}

/-- The length of the longest chain of dependencies below a key, if there is a longest one. -/
noncomputable def depth (vs : List Vertex) (k : Text) : Nat := sSup (chainLengths vs k)

/-- By depth, by name among equal depths, and by key among equal names. -/
def Ascends (depth : Text → Nat) (v w : Vertex) : Prop :=
  depth v.key < depth w.key ∨
    depth v.key = depth w.key ∧ (v.name < w.name ∨ v.name = w.name ∧ v.key < w.key)

/-- Whether a list holds every vertex that counts once, by depth, name and key. -/
structure IsSorted (vs sorted : List Vertex) : Prop where
  mem_iff : ∀ v, v ∈ sorted ↔ Counts vs v
  nodup_key : (sorted.map key).Nodup
  /-- The chains below a vertex have a longest one. -/
  isGreatest_depth : ∀ v ∈ sorted, IsGreatest (chainLengths vs v.key) (depth vs v.key)
  pairwise : sorted.Pairwise (Ascends (depth vs))
  mem_before : ∀ before v after, sorted = before ++ v :: after →
    ∀ k, Edge vs v.key k → k ∈ before.map key

section Counting

variable {vs : List Vertex} {v : Vertex} {k l : Text}

theorem counts_cons {u : Vertex} :
    Counts (u :: vs) v ↔ (v = u ∧ u.key ∉ vs.map key) ∨ Counts vs v := by
  constructor
  · rintro ⟨before, after, heq, hlast⟩
    cases before with
    | nil =>
        obtain ⟨rfl, rfl⟩ := List.cons.inj heq
        exact Or.inl ⟨rfl, hlast⟩
    | cons first before => exact Or.inr ⟨before, after, (List.cons.inj heq).2, hlast⟩
  · rintro (⟨rfl, hlast⟩ | ⟨before, after, rfl, hlast⟩)
    · exact ⟨[], vs, rfl, hlast⟩
    · exact ⟨u :: before, after, rfl, hlast⟩

theorem Counts.mem (h : Counts vs v) : v ∈ vs := by
  obtain ⟨before, after, rfl, _⟩ := h
  exact List.mem_append_right _ List.mem_cons_self

theorem distinct_cons (u : Vertex) (vs : List Vertex) :
    distinct (u :: vs) = if u.key ∈ vs.map key then distinct vs else u :: distinct vs := by
  have hany : (vs.any fun w => w.key == u.key) = decide (u.key ∈ vs.map key) := by
    rw [Bool.eq_iff_iff]
    simp
  rw [distinct, hany]
  simp only [decide_eq_true_eq]

theorem mem_distinct : v ∈ distinct vs ↔ Counts vs v := by
  induction vs with
  | nil => simp [distinct, Counts]
  | cons u rest ih =>
      rw [distinct_cons, counts_cons]
      split
      · next hmem => simp [ih, hmem]
      · next hmem => simp [ih, hmem]

theorem nodup_key_distinct (vs : List Vertex) : ((distinct vs).map key).Nodup := by
  induction vs with
  | nil => exact List.nodup_nil
  | cons v rest ih =>
      rw [distinct_cons]
      split
      · exact ih
      · next hnew =>
          refine List.nodup_cons.mpr ⟨fun hmem => ?_, ih⟩
          obtain ⟨w, hw, hkey⟩ := List.mem_map.mp hmem
          exact hnew (hkey ▸ List.mem_map_of_mem (mem_distinct.mp hw).mem)

theorem exists_counts (hk : k ∈ vs.map key) : ∃ v, Counts vs v ∧ v.key = k := by
  induction vs with
  | nil => cases hk
  | cons u rest ih =>
      by_cases hrest : k ∈ rest.map key
      · obtain ⟨v, hv, hkey⟩ := ih hrest
        exact ⟨v, counts_cons.mpr (Or.inr hv), hkey⟩
      · have hkey : u.key = k := ((List.mem_cons.mp hk).resolve_right hrest).symm
        exact ⟨u, counts_cons.mpr (Or.inl ⟨rfl, hkey ▸ hrest⟩), hkey⟩

theorem counts_iff_mem (hkeys : (vs.map key).Nodup) : Counts vs v ↔ v ∈ vs := by
  rw [← mem_distinct, distinct_eq_self hkeys]

theorem counts_distinct : Counts (distinct vs) v ↔ Counts vs v := by
  rw [counts_iff_mem (nodup_key_distinct vs), mem_distinct]

theorem key_mem_distinct : k ∈ (distinct vs).map key ↔ k ∈ vs.map key := by
  constructor
  · intro hk
    obtain ⟨v, hv, rfl⟩ := List.mem_map.mp hk
    exact List.mem_map_of_mem (mem_distinct.mp hv).mem
  · intro hk
    obtain ⟨v, hv, rfl⟩ := exists_counts hk
    exact List.mem_map_of_mem (mem_distinct.mpr hv)

theorem edge_distinct (vs : List Vertex) : Edge (distinct vs) = Edge vs := by
  funext k l
  simp only [Edge, counts_distinct, key_mem_distinct]

theorem edge_iff (hkeys : (vs.map key).Nodup) (hv : v ∈ vs) :
    Edge vs v.key l ↔ ∃ w ∈ vs, w.key = l ∧ v.Needs w := by
  constructor
  · rintro ⟨u, hu, hkey, hdep, hl, hne⟩
    cases List.inj_on_of_nodup_map hkeys hu.mem hv hkey
    obtain ⟨w, hw, rfl⟩ := List.mem_map.mp hl
    exact ⟨w, hw, rfl, hne, hdep⟩
  · rintro ⟨w, hw, rfl, hne, hdep⟩
    exact ⟨v, (counts_iff_mem hkeys).mpr hv, rfl, hdep, List.mem_map_of_mem hw, hne⟩

end Counting

section Chains

variable {vs : List Vertex} {k : Text} {n : Nat}

theorem zero_mem_chainLengths (vs : List Vertex) (k : Text) : 0 ∈ chainLengths vs k :=
  ⟨[], List.isChain_singleton k, rfl⟩

theorem succ_mem_chainLengths :
    n + 1 ∈ chainLengths vs k ↔ ∃ l, Edge vs k l ∧ n ∈ chainLengths vs l := by
  constructor
  · rintro ⟨chain, hchain, hlength⟩
    cases chain with
    | nil => cases hlength
    | cons l chain =>
        obtain ⟨hedge, hchain⟩ := List.isChain_cons_cons.mp hchain
        exact ⟨l, hedge, chain, hchain, Nat.succ.inj hlength⟩
  · rintro ⟨l, hedge, chain, hchain, rfl⟩
    exact ⟨l :: chain, List.isChain_cons_cons.mpr ⟨hedge, hchain⟩, rfl⟩

end Chains

section Rounds

variable {pending : List Vertex} (hkeys : (pending.map key).Nodup)

include hkeys

theorem nodup_key_remaining : ((remaining pending).map key).Nodup :=
  (List.filter_sublist.map key).nodup hkeys

theorem key_mem_remaining_iff {k : Text} :
    k ∈ (remaining pending).map key ↔ ∃ l, Edge pending k l := by
  constructor
  · intro hk
    obtain ⟨v, hv, rfl⟩ := List.mem_map.mp hk
    obtain ⟨hv, w, hw, hneeds⟩ := mem_remaining.mp hv
    exact ⟨w.key, (edge_iff hkeys hv).mpr ⟨w, hw, rfl, hneeds⟩⟩
  · rintro ⟨l, hedge⟩
    obtain ⟨v, hv, rfl, _⟩ := id hedge
    obtain ⟨w, hw, _, hneeds⟩ := (edge_iff hkeys hv.mem).mp hedge
    exact List.mem_map_of_mem (mem_remaining.mpr ⟨hv.mem, w, hw, hneeds⟩)

theorem edge_remaining_iff {k l : Text} :
    Edge (remaining pending) k l ↔ Edge pending k l ∧ l ∈ (remaining pending).map key := by
  have hsub : remaining pending ⊆ pending := List.filter_sublist.subset
  constructor
  · rintro ⟨v, hv, hkey, hdep, hl, hne⟩
    exact ⟨⟨v, (counts_iff_mem hkeys).mpr (hsub hv.mem), hkey, hdep,
      List.map_subset key hsub hl, hne⟩, hl⟩
  · rintro ⟨hedge, hl⟩
    -- A vertex that depends on a pending one is left itself.
    have hk := (key_mem_remaining_iff hkeys).mpr ⟨l, hedge⟩
    obtain ⟨v, hv, rfl⟩ := List.mem_map.mp hk
    obtain ⟨u, hu, hkey, hdep, _, hne⟩ := hedge
    cases List.inj_on_of_nodup_map hkeys hu.mem (hsub hv) hkey
    exact ⟨v, (counts_iff_mem (nodup_key_remaining hkeys)).mpr hv, rfl, hdep, hl, hne⟩

/-- A round shortens the chains below what it leaves by one. -/
theorem succ_mem_chainLengths_iff {k : Text} {n : Nat} :
    n + 1 ∈ chainLengths pending k ↔
      k ∈ (remaining pending).map key ∧ n ∈ chainLengths (remaining pending) k := by
  induction n generalizing k with
  | zero =>
      rw [succ_mem_chainLengths, key_mem_remaining_iff hkeys]
      simp [zero_mem_chainLengths]
  | succ n ih =>
      rw [succ_mem_chainLengths, succ_mem_chainLengths]
      constructor
      · rintro ⟨l, hedge, hn⟩
        obtain ⟨hl, hn⟩ := ih.mp hn
        exact ⟨(key_mem_remaining_iff hkeys).mpr ⟨l, hedge⟩, l,
          (edge_remaining_iff hkeys).mpr ⟨hedge, hl⟩, hn⟩
      · rintro ⟨_, l, hedge, hn⟩
        obtain ⟨hedge, hl⟩ := (edge_remaining_iff hkeys).mp hedge
        exact ⟨l, hedge, ih.mpr ⟨hl, hn⟩⟩

theorem isGreatest_of_mem_ready {v : Vertex} (hv : v ∈ ready pending) :
    IsGreatest (chainLengths pending v.key) 0 := by
  refine ⟨zero_mem_chainLengths pending v.key, fun n hn => ?_⟩
  cases n with
  | zero => exact le_refl 0
  | succ n =>
      obtain ⟨l, hedge, _⟩ := succ_mem_chainLengths.mp hn
      obtain ⟨hmem, hfree⟩ := mem_ready.mp hv
      obtain ⟨w, hw, _, hneeds⟩ := (edge_iff hkeys hmem).mp hedge
      exact absurd hneeds (hfree w hw)

theorem isGreatest_of_mem_remaining {v : Vertex} (hv : v ∈ remaining pending) {n : Nat}
    (hn : IsGreatest (chainLengths (remaining pending) v.key) n) :
    IsGreatest (chainLengths pending v.key) (n + 1) := by
  refine ⟨(succ_mem_chainLengths_iff hkeys).mpr ⟨List.mem_map_of_mem hv, hn.1⟩, fun m hm => ?_⟩
  cases m with
  | zero => exact Nat.zero_le _
  | succ m => exact Nat.succ_le_succ (hn.2 ((succ_mem_chainLengths_iff hkeys).mp hm).2)

/-- What a round takes is in strict order by name and key. -/
theorem ready_pairwise : (ready pending).Pairwise fun v w =>
    v.name < w.name ∨ v.name = w.name ∧ v.key < w.key := by
  have hsorted : (ready pending).Pairwise fun v w => precedes v w = true :=
    List.pairwise_mergeSort precedes_trans precedes_total _
  have hnodup : ((ready pending).map key).Nodup := by
    refine (List.Perm.nodup_iff ((List.mergeSort_perm _ _).map key)).mpr ?_
    exact (List.filter_sublist.map key).nodup hkeys
  have hne := List.pairwise_map.mp hnodup
  refine (hsorted.and hne).imp ?_
  rintro v w ⟨hle, hne⟩
  unfold precedes Text.le at hle
  split at hle
  · next hname => exact Or.inr ⟨hname, Std.lt_of_le_of_ne (of_decide_eq_true hle) hne⟩
  · next hname => exact Or.inl (Std.lt_of_le_of_ne (of_decide_eq_true hle) hname)

/-- The rounds take vertices by depth: those of one round are not above any, and those of the later
rounds are deeper by one than among themselves. -/
theorem rounds_ascend {fuel : Nat} {sorted : List Vertex} (h : rounds fuel pending = .ok sorted) :
    (∀ v ∈ sorted, IsGreatest (chainLengths pending v.key) (depth pending v.key)) ∧
      sorted.Pairwise (Ascends (depth pending)) := by
  induction fuel generalizing pending sorted with
  | zero =>
      rw [rounds] at h
      split at h
      · cases h
        exact ⟨by simp, .nil⟩
      · cases h
  | succ fuel ih =>
      by_cases hne : pending = []
      · subst hne
        cases h
        exact ⟨by simp, .nil⟩
      · rw [rounds_succ_of_ne_nil hne] at h
        split at h
        · cases h
        · obtain ⟨rest, hrest, rfl⟩ := map_eq_ok_iff.mp h
          obtain ⟨hdepth, hascend⟩ := ih (nodup_key_remaining hkeys) hrest
          have hleft : ∀ v ∈ rest, v ∈ remaining pending :=
            fun v hv => (rounds_eq_ok hrest).1.mem_iff.mp hv
          have hfirst : ∀ v ∈ ready pending, depth pending v.key = 0 :=
            fun v hv => (isGreatest_of_mem_ready hkeys hv).csSup_eq
          have hlater : ∀ v ∈ rest, IsGreatest (chainLengths pending v.key)
              (depth (remaining pending) v.key + 1) :=
            fun v hv => isGreatest_of_mem_remaining hkeys (hleft v hv) (hdepth v hv)
          have hdeeper : ∀ v ∈ rest, depth pending v.key = depth (remaining pending) v.key + 1 :=
            fun v hv => (hlater v hv).csSup_eq
          constructor
          · intro v hv
            rcases List.mem_append.mp hv with hv | hv
            · rw [hfirst v hv]
              exact isGreatest_of_mem_ready hkeys hv
            · rw [hdeeper v hv]
              exact hlater v hv
          · refine List.pairwise_append.mpr ⟨?_, ?_, ?_⟩
            · refine (ready_pairwise hkeys).imp_of_mem ?_
              intro v w hv hw hlt
              exact Or.inr ⟨by rw [hfirst v hv, hfirst w hw], hlt⟩
            · refine hascend.imp_of_mem ?_
              intro v w hv hw hlt
              rw [Ascends, hdeeper v hv, hdeeper w hw, Nat.succ_lt_succ_iff,
                Nat.add_right_cancel_iff]
              exact hlt
            · intro v hv w hw
              refine Or.inl ?_
              rw [hfirst v hv, hdeeper w hw]
              exact Nat.succ_pos _

end Rounds

section Sorted

variable {vs vs' sorted sorted' : List Vertex}

theorem depth_lt_of_edge {k l : Text} (hk : IsGreatest (chainLengths vs k) (depth vs k))
    (hl : IsGreatest (chainLengths vs l) (depth vs l)) (h : Edge vs k l) :
    depth vs l < depth vs k :=
  hk.2 (succ_mem_chainLengths.mpr ⟨l, h, hl.1⟩)

theorem chainLengths_distinct (vs : List Vertex) :
    chainLengths (distinct vs) = chainLengths vs := by
  funext k
  rw [chainLengths, edge_distinct]
  rfl

theorem depth_distinct (vs : List Vertex) : depth (distinct vs) = depth vs := by
  funext k
  rw [depth, chainLengths_distinct]
  rfl

theorem isSorted_of_order (h : order vs = .ok sorted) : IsSorted vs sorted := by
  have hkeys := nodup_key_distinct vs
  have hperm := (rounds_eq_ok h).1
  obtain ⟨hdepth, hascend⟩ := rounds_ascend hkeys h
  rw [depth_distinct] at hdepth hascend
  rw [chainLengths_distinct] at hdepth
  have hmem : ∀ v, v ∈ sorted ↔ Counts vs v := fun v => hperm.mem_iff.trans mem_distinct
  refine ⟨hmem, (hperm.map key).nodup_iff.mpr hkeys, hdepth, hascend, ?_⟩
  intro before v after hsplit k hedge
  obtain ⟨_, _, _, _, hk, _⟩ := id hedge
  obtain ⟨w, hw, rfl⟩ := exists_counts hk
  have hv : v ∈ sorted := hsplit ▸ List.mem_append_right _ List.mem_cons_self
  have hlt := depth_lt_of_edge (hdepth v hv) (hdepth w ((hmem w).mpr hw)) hedge
  have hplace := (hmem w).mpr hw
  rw [hsplit, List.mem_append, List.mem_cons] at hplace
  rcases hplace with hbefore | rfl | hafter
  · exact List.mem_map_of_mem hbefore
  · exact absurd hlt (lt_irrefl _)
  · -- What stands behind a vertex is at least as deep.
    rw [hsplit] at hascend
    have hstep := (List.pairwise_cons.mp (List.pairwise_append.mp hascend).2.1).1 w hafter
    rcases hstep with hless | ⟨heq, _⟩
    · exact absurd hlt (lt_asymm hless)
    · exact absurd hlt (by rw [heq]; exact lt_irrefl _)

theorem IsSorted.not_transGen (h : IsSorted vs sorted) (k : Text) : ¬ TransGen (Edge vs) k k := by
  have hgreatest : ∀ {k}, k ∈ vs.map key → IsGreatest (chainLengths vs k) (depth vs k) := by
    intro k hk
    obtain ⟨v, hv, rfl⟩ := exists_counts hk
    exact h.isGreatest_depth v ((h.mem_iff v).mpr hv)
  apply not_transGen_of_lt (f := depth vs)
  intro k l hedge
  obtain ⟨v, hv, rfl, _, hl, _⟩ := id hedge
  exact depth_lt_of_edge (hgreatest (List.mem_map_of_mem hv.mem)) (hgreatest hl) hedge

theorem exists_order_iff (vs : List Vertex) :
    (∃ sorted, order vs = .ok sorted) ↔ ∀ k, ¬ TransGen (Edge vs) k k := by
  constructor
  · rintro ⟨sorted, h⟩
    exact (isSorted_of_order h).not_transGen
  · intro hacyclic
    cases h : order vs with
    | ok sorted => exact ⟨sorted, rfl⟩
    | error rest =>
        obtain ⟨v, hcycle⟩ := (order_eq_error_iff vs).mp ⟨rest, h⟩
        refine absurd (hcycle.lift key ?_) (hacyclic v.key)
        rintro a b ⟨ha, hb, hneeds⟩
        rw [Function.onFun, ← edge_distinct, edge_iff (nodup_key_distinct vs) ha]
        exact ⟨b, hb, rfl, hneeds⟩

end Sorted

section Invariance

/-- Whether two vertices differ in the way their dependencies are listed at most. -/
structure Alike (v w : Vertex) : Prop where
  key_eq : w.key = v.key
  name_eq : w.name = v.name
  mem_iff : ∀ k, k ∈ w.dependencies ↔ k ∈ v.dependencies

theorem Alike.refl (v : Vertex) : v.Alike v := ⟨rfl, rfl, fun _ => Iff.rfl⟩

theorem Alike.symm {v w : Vertex} (h : v.Alike w) : w.Alike v :=
  ⟨h.key_eq.symm, h.name_eq.symm, fun k => (h.mem_iff k).symm⟩

/-- Whether each vertex that counts in a list is alike to one that counts in another. -/
def Covers (vs vs' : List Vertex) : Prop := ∀ v, Counts vs v → ∃ w, Counts vs' w ∧ v.Alike w

variable {vs vs' sorted sorted' : List Vertex}

theorem covers_of_forall₂ (h : List.Forall₂ Alike vs vs') : Covers vs vs' := by
  have hkeys : vs'.map key = vs.map key := by
    induction h with
    | nil => rfl
    | cons hvw _ ih => rw [List.map_cons, List.map_cons, ih, hvw.key_eq]
  induction h with
  | nil =>
      intro v hv
      cases hv.mem
  | @cons a b as bs hab hrest ih =>
      obtain ⟨hkey, hrestKeys⟩ := List.cons.inj hkeys
      intro v hv
      rcases counts_cons.mp hv with ⟨rfl, hnew⟩ | hv
      · exact ⟨b, counts_cons.mpr (Or.inl ⟨rfl, by rwa [hkey, hrestKeys]⟩), hab⟩
      · obtain ⟨w, hw, halike⟩ := ih hrestKeys v hv
        exact ⟨w, counts_cons.mpr (Or.inr hw), halike⟩

theorem covers_of_perm (hperm : vs'.Perm vs) (hkeys : (vs.map key).Nodup) : Covers vs vs' := by
  intro v hv
  refine ⟨v, (counts_iff_mem ((hperm.map key).nodup_iff.mpr hkeys)).mpr ?_, .refl v⟩
  exact hperm.mem_iff.mpr hv.mem

theorem Covers.edge (h : Covers vs vs') {k l : Text} (hedge : Edge vs k l) : Edge vs' k l := by
  obtain ⟨v, hv, rfl, hdep, hl, hne⟩ := hedge
  obtain ⟨u, hu, rfl⟩ := exists_counts hl
  obtain ⟨w, hw, halike⟩ := h v hv
  obtain ⟨u', hu', halike'⟩ := h u hu
  refine ⟨w, hw, halike.key_eq, (halike.mem_iff _).mpr hdep, ?_, hne⟩
  rw [← halike'.key_eq]
  exact List.mem_map_of_mem hu'.mem

theorem Ascends.asymm {depth : Text → Nat} {v w : Vertex} (h : Ascends depth v w) :
    ¬ Ascends depth w v := by
  rintro (hless | ⟨heq, hor⟩)
  · rcases h with hless' | ⟨heq', _⟩
    · omega
    · omega
  · rcases h with hless' | ⟨_, hor'⟩
    · omega
    · rcases hor with hname | ⟨hname, hkey⟩
      · rcases hor' with hname' | ⟨hname', _⟩
        · exact List.lt_asymm hname hname'
        · exact List.lt_irrefl _ (hname' ▸ hname)
      · rcases hor' with hname' | ⟨_, hkey'⟩
        · exact List.lt_irrefl _ (hname ▸ hname')
        · exact List.lt_asymm hkey hkey'

/-- A vertex without its dependencies. -/
def bare (v : Vertex) : Vertex := { v with dependencies := [] }

theorem IsSorted.bare_subset (h : IsSorted vs sorted) (h' : IsSorted vs' sorted')
    (hcovers : Covers vs vs') : sorted.map bare ⊆ sorted'.map bare := by
  intro u hu
  obtain ⟨v, hv, rfl⟩ := List.mem_map.mp hu
  obtain ⟨w, hw, halike⟩ := hcovers v ((h.mem_iff v).mp hv)
  refine List.mem_map.mpr ⟨w, (h'.mem_iff w).mpr hw, ?_⟩
  rw [bare, bare, halike.key_eq, halike.name_eq]

theorem IsSorted.nodup_bare (h : IsSorted vs sorted) : (sorted.map bare).Nodup := by
  refine List.Nodup.of_map key ?_
  rw [List.map_map]
  exact h.nodup_key

/-- The order of keys is determined by names and by dependencies between keys. -/
theorem IsSorted.map_key_eq (h : IsSorted vs sorted) (h' : IsSorted vs' sorted')
    (hcovers : Covers vs vs') (hcovers' : Covers vs' vs) : sorted'.map key = sorted.map key := by
  have hedge : Edge vs' = Edge vs := by
    funext k l
    exact propext ⟨hcovers'.edge, hcovers.edge⟩
  have hdepth : depth vs' = depth vs := by
    funext k
    rw [depth, chainLengths, hedge]
    rfl
  have hpairwise := h'.pairwise
  rw [hdepth] at hpairwise
  have hperm : (sorted'.map bare).Perm (sorted.map bare) := by
    refine (List.perm_ext_iff_of_nodup h'.nodup_bare h.nodup_bare).mpr fun u => ?_
    exact ⟨fun hu => h'.bare_subset h hcovers' hu, fun hu => h.bare_subset h' hcovers hu⟩
  have hbare : sorted'.map bare = sorted.map bare := by
    have hsorted' : (sorted'.map bare).Pairwise (Ascends (depth vs)) :=
      List.pairwise_map.mpr hpairwise
    have hsorted : (sorted.map bare).Pairwise (Ascends (depth vs)) :=
      List.pairwise_map.mpr h.pairwise
    refine hperm.eq_of_pairwise ?_ hsorted' hsorted
    intro v w _ _ hvw hwv
    exact absurd hwv hvw.asymm
  have hkeys := congrArg (List.map key) hbare
  rwa [List.map_map, List.map_map] at hkeys

/-- The keys of vertices in dependency order, if they can be ordered. -/
def orderedKeys? (vs : List Vertex) : Option (List Text) :=
  (order vs).toOption.map fun sorted => sorted.map key

theorem orderedKeys?_of_covers (hcovers : Covers vs vs') (hcovers' : Covers vs' vs) :
    orderedKeys? vs' = orderedKeys? vs := by
  have hsome : ∀ {us us' : List Vertex} {keys : List Text}, Covers us us' → Covers us' us →
      orderedKeys? us = some keys → orderedKeys? us' = some keys := by
    intro us us' keys hto hfrom hkeys
    obtain ⟨sorted, hsorted, rfl⟩ := Option.map_eq_some_iff.mp hkeys
    have hok := eq_ok_of_toOption_eq_some hsorted
    obtain ⟨sorted', hok'⟩ := (exists_order_iff us').mpr fun k hcycle =>
      (exists_order_iff us).mp ⟨sorted, hok⟩ k (TransGen.mono (fun _ _ => hfrom.edge) k k hcycle)
    rw [orderedKeys?, hok', ← (isSorted_of_order hok).map_key_eq (isSorted_of_order hok') hto hfrom]
    rfl
  cases hkeys : orderedKeys? vs with
  | some keys => exact hsome hcovers hcovers' hkeys
  | none =>
      cases hkeys' : orderedKeys? vs' with
      | none => rfl
      | some keys => cases hkeys.symm.trans (hsome hcovers' hcovers hkeys')

end Invariance

section Runs

/-- Rounds in each of which what is pending may be met in any order. -/
inductive Runs : List Vertex → Except (List Vertex) (List Vertex) → Prop where
  | done : Runs [] (.ok [])
  | stuck {pending met : List Vertex} (hperm : met.Perm pending) (hne : met ≠ [])
      (hready : ready met = []) : Runs pending (.error met)
  | round {pending met : List Vertex} {result : Except (List Vertex) (List Vertex)}
      (hperm : met.Perm pending) (hready : ready met ≠ []) (hrest : Runs (remaining met) result) :
      Runs pending (result.map (ready met ++ ·))

variable {pending : List Vertex} {result : Except (List Vertex) (List Vertex)}

theorem runs_rounds {fuel : Nat} (hfuel : pending.length ≤ fuel) :
    Runs pending (rounds fuel pending) := by
  induction fuel generalizing pending with
  | zero =>
      cases List.length_eq_zero_iff.mp (Nat.le_zero.mp hfuel)
      exact .done
  | succ fuel ih =>
      by_cases hne : pending = []
      · subst hne
        exact .done
      · rw [rounds_succ_of_ne_nil hne]
        split
        · next hready => exact .stuck (.refl _) hne hready
        · next hready =>
            have hlt := length_remaining_lt hready
            exact .round (.refl _) hready (ih (by omega))

/-- Whatever order the rounds meet vertices in, they come to the same order or to none. -/
theorem Runs.toOption_eq (h : Runs pending result) {pending' : List Vertex}
    (hperm : pending'.Perm pending) (hkeys : (pending.map key).Nodup) {fuel : Nat}
    (hfuel : pending.length ≤ fuel) : result.toOption = (rounds fuel pending').toOption := by
  induction h generalizing pending' fuel with
  | done =>
      cases hperm.eq_nil
      cases fuel with
      | zero => rfl
      | succ fuel => rfl
  | @stuck pending met hmet hne hready =>
      have hne' : pending' ≠ [] := fun hnil => hne (hnil ▸ hmet.trans hperm.symm).eq_nil
      obtain ⟨fuel, rfl⟩ : ∃ f, fuel = f + 1 :=
        Nat.exists_eq_succ_of_ne_zero fun hzero => hne' (List.length_eq_zero_iff.mp (by
          rw [hperm.length_eq]
          omega))
      have hsame := ready_of_perm (hperm.trans hmet.symm) ((hmet.map key).nodup_iff.mpr hkeys)
      rw [rounds_succ_of_ne_nil hne', hsame, if_pos hready]
      rfl
  | @round pending met result hmet hready hrest ih =>
      have hlt := length_remaining_lt hready
      have hlength := hmet.length_eq
      have hmetKeys := (hmet.map key).nodup_iff.mpr hkeys
      have hsame := ready_of_perm (hperm.trans hmet.symm) hmetKeys
      obtain ⟨v, hv⟩ := List.exists_mem_of_ne_nil _ hready
      have hne' : pending' ≠ [] :=
        List.ne_nil_of_mem ((hperm.trans hmet.symm).mem_iff.mpr (mem_ready.mp hv).1)
      obtain ⟨fuel, rfl⟩ : ∃ f, fuel = f + 1 := ⟨fuel - 1, by omega⟩
      have hfewer : (remaining met).length ≤ fuel := by omega
      have hleft := ih (remaining_of_perm (hperm.trans hmet.symm)) (nodup_key_remaining hmetKeys)
        hfewer
      rw [rounds_succ_of_ne_nil hne', hsame, if_neg hready]
      generalize rounds fuel (remaining pending') = left at hleft
      cases result with
      | error rest =>
          cases left with
          | error rest' => rfl
          | ok sorted => cases hleft
      | ok sorted =>
          cases left with
          | error rest => cases hleft
          | ok sorted' =>
              cases hleft
              rfl

end Runs

/-- Vertices, of which the last one with a key counts, can be ordered exactly if no key depends on
itself through others. They are then ordered by depth, name and key, each after those it depends
on. The order of the keys does not depend on the order in which rounds meet what is pending, on the
way dependencies are listed, or, if keys differ, on the order in which vertices are given. -/
theorem order_by_depth (vs : List Vertex) :
    ((∃ sorted, order vs = .ok sorted) ↔ ∀ k, ¬ TransGen (Edge vs) k k) ∧
      (∀ sorted, order vs = .ok sorted → IsSorted vs sorted) ∧
      (Runs (distinct vs) (order vs) ∧
        ∀ result, Runs (distinct vs) result → result.toOption = (order vs).toOption) ∧
      (∀ vs', List.Forall₂ Alike vs vs' → orderedKeys? vs' = orderedKeys? vs) ∧
      ∀ vs', vs'.Perm vs → (vs.map key).Nodup → orderedKeys? vs' = orderedKeys? vs := by
  have hlength := length_distinct_le vs
  refine ⟨exists_order_iff vs, fun _ => isSorted_of_order, ⟨runs_rounds hlength, ?_⟩, ?_, ?_⟩
  · intro result hruns
    exact hruns.toOption_eq (.refl _) (nodup_key_distinct vs) hlength
  · intro vs' halike
    refine orderedKeys?_of_covers (covers_of_forall₂ halike) (covers_of_forall₂ ?_)
    exact (List.Forall₂.flip halike).imp fun _ _ => Alike.symm
  · intro vs' hperm hkeys
    refine orderedKeys?_of_covers (covers_of_perm hperm hkeys) (covers_of_perm hperm.symm ?_)
    exact (hperm.map key).nodup_iff.mpr hkeys

/-- Vertices with a key that is given twice, a dependency on the vertex itself, one on no vertex,
one that is repeated, and two that have one name. -/
def layered : List Vertex :=
  [⟨"x", "Old", ["d"]⟩, ⟨"d", "A", ["b", "c", "b", "e"]⟩, ⟨"c", "B", ["a", "c"]⟩, ⟨"b", "B", ["a"]⟩,
    ⟨"a", "Z", []⟩, ⟨"x", "X", ["x"]⟩]

/-- The same with the dependencies of the second vertex listed in another way. -/
def relayered : List Vertex :=
  [⟨"x", "Old", ["d"]⟩, ⟨"d", "A", ["e", "c", "b"]⟩, ⟨"c", "B", ["a", "c"]⟩, ⟨"b", "B", ["a"]⟩,
    ⟨"a", "Z", []⟩, ⟨"x", "X", ["x"]⟩]

/-- Its keys in dependency order. -/
def layeredKeys : List Text := ["x", "a", "b", "c", "d"]

theorem order_by_depth_layered :
    (∀ k, ¬ TransGen (Edge layered) k k) ∧
    (∃ sorted, order layered = .ok sorted ∧ IsSorted layered sorted) ∧
    (List.Forall₂ Alike layered relayered ∧ orderedKeys? relayered = orderedKeys? layered) ∧
    (layered.tail.reverse.Perm layered.tail ∧ (layered.tail.map key).Nodup ∧
      orderedKeys? layered.tail.reverse = orderedKeys? layered.tail) := by
  have hdown : ∀ v ∈ distinct layered, ∀ l ∈ v.dependencies, l ∈ (distinct layered).map key →
      l ≠ v.key → layeredKeys.idxOf l < layeredKeys.idxOf v.key := by decide +kernel
  have hacyclic : ∀ k, ¬ TransGen (Edge layered) k k := by
    rw [← edge_distinct]
    apply not_transGen_of_lt (f := fun k => layeredKeys.idxOf k)
    rintro k l ⟨v, hv, rfl, hdep, hmem, hne⟩
    exact hdown v hv.mem l hdep hmem hne
  have halike : List.Forall₂ Alike layered relayered := by
    refine .cons (.refl _) (.cons ⟨rfl, rfl, fun k => ?_⟩ ?_)
    · simp only [List.mem_cons, List.not_mem_nil, or_false]
      tauto
    · exact List.forall₂_same.mpr fun v _ => .refl v
  have hnodup : (layered.tail.map key).Nodup := by decide +kernel
  obtain ⟨hiff, hall, _, hlisted, _⟩ := order_by_depth layered
  obtain ⟨_, _, _, _, hgiven⟩ := order_by_depth layered.tail
  obtain ⟨sorted, hok⟩ := hiff.mpr hacyclic
  exact ⟨hacyclic, ⟨sorted, hok, hall sorted hok⟩, ⟨halike, hlisted relayered halike⟩,
    List.reverse_perm _, hnodup, hgiven _ (List.reverse_perm _) hnodup⟩

end Vertex

end RecordSchema
