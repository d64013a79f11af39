import Mathlib.Data.List.Induction
import Mathlib.Logic.Function.Basic
import RecordSchema.Proofs.Program.Lookup

/-!
# What was set in a scope

Scopes are edited one after another: a definition is set in a scope, or all definitions of a scope
are set in another one or in itself. No scope keeps a record of this, yet what it lists is
determined by it alone. Under each kind stand the names that were set, each of them once and in the
order in which they came first, and with each name its definition that came last. An edit of some
kinds leaves the others as they are.
-/

namespace RecordSchema

open Text

section Repeated

variable (names more : List Text)

/-- Repeated names can be left out of the second part before they are left out of the whole. -/
theorem eraseDups_append_eraseDups :
    (names ++ more.eraseDups).eraseDups = (names ++ more).eraseDups := by
  induction more using List.reverseRecOn with
  | nil => rfl
  | append_singleton more name ih =>
      rw [← List.append_assoc, Namespace.eraseDups_concat (names ++ more), ← ih,
        Namespace.eraseDups_concat more]
      -- If the name has come before in the second part, it is left out on both sides.
      by_cases hname : name ∈ more
      · simp [hname]
      · rw [if_neg (by simpa using hname), ← List.append_assoc, Namespace.eraseDups_concat]

variable {names}

theorem eraseDups_of_nodup (h : names.Nodup) : names.eraseDups = names := by
  induction names using List.reverseRecOn with
  | nil => rfl
  | append_singleton names name ih =>
      obtain ⟨hnames, -, hnew⟩ := List.nodup_append'.mp h
      have hname : name ∉ names := fun hmem => hnew hmem (List.mem_singleton_self name)
      rw [Namespace.eraseDups_concat, ih hnames, if_neg (by simpa using hname)]

end Repeated

namespace Definition

/-- The names that definitions of a kind have, one after another. -/
def namesOf (k : Keyword) (ds : List Definition) : List Text :=
  (ds.filter fun d => d.keyword == k).map name

/-- The last definition of a kind with a name. -/
def last? (ds : List Definition) (k : Keyword) (name : Text) : Option Definition :=
  ds.reverse.find? (isNamed k name)

variable {k : Keyword} {name : Text}

theorem namesOf_append (ds more : List Definition) :
    namesOf k (ds ++ more) = namesOf k ds ++ namesOf k more := by
  simp [namesOf]

theorem last?_append (ds more : List Definition) :
    last? (ds ++ more) k name = (last? more k name).or (last? ds k name) := by
  simp [last?]

theorem last?_concat (ds : List Definition) (d : Definition) :
    last? (ds ++ [d]) k name = if d.named = ⟨k, name⟩ then some d else last? ds k name := by
  rw [last?, List.reverse_concat]
  by_cases hd : d.named = ⟨k, name⟩
  · rw [if_pos hd, List.find?_cons_of_pos (isNamed_eq_true_iff.mpr hd)]
  · rw [if_neg hd, List.find?_cons_of_neg (mt isNamed_eq_true_iff.mp hd), last?]

/-- Among the definitions of a kind are all those of the kind with a name. -/
theorem find?_filter_keyword (ds : List Definition) :
    (ds.filter fun d => d.keyword == k).find? (isNamed k name) = ds.find? (isNamed k name) := by
  have hnamed : ∀ d : Definition,
      decide ((d.keyword == k) = true ∧ d.isNamed k name = true) = d.isNamed k name := by
    intro d
    rw [Bool.decide_and, Bool.decide_eq_true, Bool.decide_eq_true, isNamed, ← Bool.and_assoc,
      Bool.and_self]
  rw [List.find?_filter, funext hnamed]

theorem last?_filter (ds : List Definition) :
    last? (ds.filter fun d => d.keyword == k) k name = last? ds k name := by
  rw [last?, ← List.filter_reverse, find?_filter_keyword, last?]

end Definition

namespace Scope

variable {s t other : Scope} {d : Definition} {k : Keyword} {name : Text}

section Kinds

theorem filter_setIn_self (d : Definition) (ds : List Definition) :
    (setIn d ds).filter (fun e => e.keyword == d.keyword) =
      setIn d (ds.filter fun e => e.keyword == d.keyword) := by
  induction ds with
  | nil => simp [setIn]
  | cons e rest ih =>
      rw [setIn]
      by_cases hnamed : e.isNamed d.keyword d.name = true
      · have hkeyword : e.keyword = d.keyword :=
          congrArg Key.keyword (Definition.isNamed_eq_true_iff.mp hnamed)
        simp [setIn, hnamed, hkeyword]
      · rw [if_neg hnamed, List.filter_cons, List.filter_cons, ih]
        split
        · rw [setIn, if_neg hnamed]
        · rfl

theorem filter_setIn_of_ne (h : d.keyword ≠ k) (ds : List Definition) :
    (setIn d ds).filter (fun e => e.keyword == k) = ds.filter fun e => e.keyword == k := by
  induction ds with
  | nil => simpa [setIn] using h
  | cons e rest ih =>
      rw [setIn]
      split
      · next hnamed =>
          have hkeyword : e.keyword = d.keyword :=
            congrArg Key.keyword (Definition.isNamed_eq_true_iff.mp hnamed)
          simp [hkeyword, h]
      · rw [List.filter_cons, List.filter_cons, ih]

/-- Setting a definition sets it among those of its kind and leaves the other kinds alone. -/
theorem ofKind_set (s : Scope) (d : Definition) (k : Keyword) :
    (s.set d).ofKind k = if d.keyword = k then setIn d (s.ofKind k) else s.ofKind k := by
  split
  · next h =>
      subst h
      exact filter_setIn_self d s.definitions
  · next h => exact filter_setIn_of_ne h s.definitions

/-- What definitions leave under a kind depends on those of the kind alone. -/
theorem ofKind_foldl_set (s : Scope) (ds : List Definition) (k : Keyword) :
    (ds.foldl set s).ofKind k =
      (ds.filter fun d => d.keyword == k).foldl (fun kept d => setIn d kept) (s.ofKind k) := by
  induction ds generalizing s with
  | nil => rfl
  | cons d rest ih =>
      rw [List.foldl_cons, ih, ofKind_set]
      by_cases hd : d.keyword = k
      · rw [if_pos hd, List.filter_cons_of_pos (by simpa using hd), List.foldl_cons]
      · rw [if_neg hd, List.filter_cons_of_neg (by simpa using hd)]

/-- The definitions of one kind, as a scope. -/
def only (s : Scope) (k : Keyword) : Scope := ⟨s.ofKind k⟩

theorem filter_ofKind (s : Scope) (k k' : Keyword) :
    (s.ofKind k').filter (fun d => d.keyword == k) = if k' = k then s.ofKind k else [] := by
  split
  · next h =>
      subst h
      rw [List.filter_eq_self]
      exact fun d hd => beq_iff_eq.mpr (mem_ofKind.mp hd).2
  · next h =>
      rw [List.filter_eq_nil_iff]
      intro d hd hk
      exact h ((mem_ofKind.mp hd).2.symm.trans (beq_iff_eq.mp hk))

/-- The part of an update that is of one kind does to the kind what the update does, and nothing to
any other kind. -/
theorem ofKind_update_only (s other : Scope) (k k' : Keyword) :
    (s.update (other.only k')).ofKind k =
      if k' = k then (s.update other).ofKind k else s.ofKind k := by
  rw [update, ofKind_foldl_set, only, filter_ofKind]
  split
  · rw [update, ofKind_foldl_set]
    rfl
  · rfl

theorem ofKind_update_of_eq_nil (s : Scope) (h : other.ofKind k = []) :
    (s.update other).ofKind k = s.ofKind k := by
  rw [update, ofKind_foldl_set]
  change (other.ofKind k).foldl _ _ = _
  rw [h, List.foldl_nil]

/-- Whether two scopes list the same names and definitions of a kind in the same order, and find
the same under each name. -/
def AgreeOn (k : Keyword) (s t : Scope) : Prop :=
  s.names k = t.names k ∧ s.ofKind k = t.ofKind k ∧ ∀ name, s.get? k name = t.get? k name

theorem agreeOn_of_ofKind_eq (h : s.ofKind k = t.ofKind k) : AgreeOn k s t := by
  refine ⟨congrArg (List.map Definition.name) h, h, fun name => ?_⟩
  calc s.get? k name
      = (s.ofKind k).find? (Definition.isNamed k name) :=
        (Definition.find?_filter_keyword s.definitions).symm
    _ = (t.ofKind k).find? (Definition.isNamed k name) := by rw [h]
    _ = t.get? k name := Definition.find?_filter_keyword t.definitions

end Kinds

section Names

theorem mem_names_iff :
    name ∈ s.names k ↔ (⟨k, name⟩ : Key) ∈ s.definitions.map Definition.named := by
  simp [names, ofKind, Definition.named, and_assoc]

theorem mem_names_iff_isSome_get? : name ∈ s.names k ↔ (s.get? k name).isSome = true := by
  rw [mem_names_iff, get?, List.find?_isSome, List.mem_map]
  simp only [Definition.isNamed_eq_true_iff]

theorem names_eq_map_named (s : Scope) (k : Keyword) :
    s.names k =
      ((s.definitions.map Definition.named).filter fun key => key.keyword == k).map Key.name := by
  rw [List.filter_map, List.map_map]
  rfl

/-- A name that is new to its kind comes to stand behind the others. -/
theorem names_set_self (s : Scope) (d : Definition) :
    (s.set d).names d.keyword =
      if d.name ∈ s.names d.keyword then s.names d.keyword else s.names d.keyword ++ [d.name] := by
  have hset : (s.set d).definitions.map Definition.named = _ := map_named_setIn d s.definitions
  rw [names_eq_map_named (s.set d), hset]
  by_cases hmem : d.named ∈ s.definitions.map Definition.named
  · rw [if_pos hmem, if_pos (mem_names_iff.mpr hmem), names_eq_map_named]
  · rw [if_neg hmem, if_neg (mt mem_names_iff.mp hmem), List.filter_append, List.map_append,
      names_eq_map_named]
    simp [Definition.named]

variable {before : List Text} (h : s.names k = before.eraseDups)

include h

theorem names_set (d : Definition) :
    (s.set d).names k = (before ++ Definition.namesOf k [d]).eraseDups := by
  by_cases hd : d.keyword = k
  · subst hd
    have hname : Definition.namesOf d.keyword [d] = [d.name] := by simp [Definition.namesOf]
    rw [names_set_self, h, hname, Namespace.eraseDups_concat]
    simp only [List.contains_iff_mem]
  · have hnone : Definition.namesOf k [d] = [] := by simpa [Definition.namesOf] using hd
    rw [names, ofKind_set, if_neg hd, hnone, List.append_nil]
    exact h

theorem names_foldl_set (ds : List Definition) :
    (ds.foldl set s).names k = (before ++ Definition.namesOf k ds).eraseDups := by
  induction ds generalizing s before with
  | nil => simpa [Definition.namesOf] using h
  | cons d rest ih =>
      rw [List.foldl_cons, ih (names_set h d), List.append_assoc, ← Definition.namesOf_append]
      rfl

theorem names_update {after : List Text} (hother : other.names k = after.eraseDups) :
    (s.update other).names k = (before ++ after).eraseDups := by
  rw [update, names_foldl_set h]
  change (before ++ other.names k).eraseDups = _
  rw [hother, eraseDups_append_eraseDups]

end Names

section Distinct

variable (h : s.Distinct)

include h

theorem Distinct.nodup_names (k : Keyword) : (s.names k).Nodup := by
  rw [names_eq_map_named]
  refine (h.filter _).map_on ?_
  rintro ⟨k₁, name₁⟩ hkey₁ ⟨k₂, name₂⟩ hkey₂ (rfl : name₁ = name₂)
  have hk₁ : k₁ = k := by simpa using (List.mem_filter.mp hkey₁).2
  have hk₂ : k₂ = k := by simpa using (List.mem_filter.mp hkey₂).2
  rw [hk₁, hk₂]

/-- Where no two definitions have the same kind and name, the first one found is the last one,
too. -/
theorem Distinct.get?_eq_last? (k : Keyword) (name : Text) :
    s.get? k name = Definition.last? s.definitions k name := by
  have hperm : (Scope.mk s.definitions.reverse).definitions.Perm s.definitions :=
    List.reverse_perm s.definitions
  exact (get?_of_perm h hperm k name).symm

theorem Distinct.map_some_ofKind (k : Keyword) :
    (s.ofKind k).map some = (s.names k).map (s.get? k) := by
  rw [names, List.map_map]
  exact List.map_congr_left fun d hd => (h.get?_eq_some hd).symm

end Distinct

section Records

/-- Whether a scope holds what definitions leave that were set one after another. -/
structure Records (s : Scope) (past : List Definition) : Prop where
  distinct : s.Distinct
  names_eq (k : Keyword) : s.names k = (Definition.namesOf k past).eraseDups
  get?_eq (k : Keyword) (name : Text) : s.get? k name = Definition.last? past k name

variable {past more : List Definition}

theorem records_empty : empty.Records [] :=
  ⟨List.nodup_nil, fun _ => rfl, fun _ _ => rfl⟩

theorem Records.set (h : s.Records past) (d : Definition) : (s.set d).Records (past ++ [d]) where
  distinct := h.distinct.set d
  names_eq k := by rw [names_set (h.names_eq k), Definition.namesOf_append]
  get?_eq k name := by rw [get?_set, Definition.last?_concat, h.get?_eq]

/-- Setting the definitions of another scope has the effect of setting again all that was set
there. -/
theorem Records.update (h : s.Records past) (hother : other.Records more) :
    (s.update other).Records (past ++ more) where
  distinct := h.distinct.update other
  names_eq k := by
    rw [names_update (h.names_eq k) (hother.names_eq k), Definition.namesOf_append]
  get?_eq k name := by
    rw [get?_update s hother.distinct, Definition.last?_append, h.get?_eq, hother.get?_eq]

/-- The definitions of a scope, kind by kind. -/
def byKind (s : Scope) : List Definition := Keyword.all.flatMap s.ofKind

theorem filter_byKind (s : Scope) (k : Keyword) :
    s.byKind.filter (fun d => d.keyword == k) = s.ofKind k := by
  rw [byKind, List.filter_flatMap]
  simp only [filter_ofKind]
  -- Each kind occurs once among all kinds.
  cases k <;> simp [Keyword.all]

theorem Distinct.records_byKind (h : s.Distinct) : s.Records s.byKind where
  distinct := h
  names_eq k := by
    rw [Definition.namesOf, filter_byKind]
    exact (eraseDups_of_nodup (h.nodup_names k)).symm
  get?_eq k name := by
    rw [h.get?_eq_last?, ← Definition.last?_filter, ← Definition.last?_filter s.byKind,
      filter_byKind]
    rfl

/-- Whether a scope lists the names of a kind among definitions that were set, each once and in the
order in which they were set first, with the definitions of these names that were set last. -/
structure Lists (s : Scope) (k : Keyword) (past : List Definition) : Prop where
  nodup_names : (s.names k).Nodup
  names_eq : s.names k = (Definition.namesOf k past).eraseDups
  mem_names_iff (name : Text) : name ∈ s.names k ↔ (s.get? k name).isSome = true
  get?_eq (name : Text) : s.get? k name = Definition.last? past k name
  ofKind_eq : (s.ofKind k).map some = (s.names k).map (Definition.last? past k)

theorem Records.lists (h : s.Records past) (k : Keyword) : s.Lists k past where
  nodup_names := h.distinct.nodup_names k
  names_eq := h.names_eq k
  mem_names_iff _ := mem_names_iff_isSome_get?
  get?_eq := h.get?_eq k
  ofKind_eq := by rw [h.distinct.map_some_ofKind, funext (h.get?_eq k)]

end Records

/-- A change of one of several scopes, which are told apart by `ι`. -/
inductive Edit (ι : Type) where
  | set (scope : ι) (d : Definition)
  /-- Sets the definitions of a scope in another one or in itself. -/
  | update (scope other : ι)

namespace Edit

variable {ι : Type}

/-- The scope that an edit changes. -/
def target : Edit ι → ι
  | set i _ => i
  | update i _ => i

/-- What an edit makes of the scope that it changes. -/
def change (scopes : ι → Scope) : Edit ι → Scope
  | set i d => (scopes i).set d
  | update i j => (scopes i).update (scopes j)

/-- The definitions that an edit sets, one by one: those of another scope kind by kind. -/
def sets (scopes : ι → Scope) : Edit ι → List Definition
  | set _ d => [d]
  | update _ j => (scopes j).byKind

/-- The definitions that an edit gives to the scope that it changes, where `past` was given to the
scopes before: an update gives all that the other scope was ever given. -/
def gives (past : ι → List Definition) : Edit ι → List Definition
  | set _ d => [d]
  | update _ j => past j

/-- Whether an edit is about a kind. -/
def Concerns (scopes : ι → Scope) (k : Keyword) : Edit ι → Prop
  | set _ d => d.keyword = k
  | update _ j => (scopes j).ofKind k ≠ []

variable [DecidableEq ι]

/-- The scopes after an edit. -/
def apply (scopes : ι → Scope) (e : Edit ι) : ι → Scope :=
  Function.update scopes e.target (e.change scopes)

/-- The scopes after edits, all of which are empty at first. -/
def run (edits : List (Edit ι)) : ι → Scope := edits.foldl apply fun _ => empty

/-- The past of the scopes after an edit that adds definitions to that of the changed scope. -/
def enter (past : ι → List Definition) (e : Edit ι) (ds : List Definition) : ι → List Definition :=
  Function.update past e.target (past e.target ++ ds)

/-- The definitions that were set in each scope, one by one, after edits of scopes with a past. -/
def history : (ι → Scope) → (ι → List Definition) → List (Edit ι) → ι → List Definition
  | _, past, [] => past
  | scopes, past, e :: rest => history (e.apply scopes) (enter past e (e.sets scopes)) rest

/-- The definitions that edits have given to each scope. -/
def given (edits : List (Edit ι)) : ι → List Definition :=
  edits.foldl (fun past e => enter past e (e.gives past)) fun _ => []

variable {scopes : ι → Scope} {past : ι → List Definition} {e : Edit ι} {k : Keyword}

section Step

variable (h : ∀ i, (scopes i).Records (past i))

include h

theorem records_apply {ds : List Definition}
    (hchange : (e.change scopes).Records (past e.target ++ ds)) (i : ι) :
    (e.apply scopes i).Records (enter past e ds i) := by
  unfold apply enter
  by_cases hi : i = e.target
  · subst hi
    rw [Function.update_self, Function.update_self]
    exact hchange
  · rw [Function.update_of_ne hi, Function.update_of_ne hi]
    exact h i

theorem records_sets (e : Edit ι) (i : ι) :
    (e.apply scopes i).Records (enter past e (e.sets scopes) i) := by
  apply records_apply h
  cases e with
  | set i d => exact (h i).set d
  | update i j =>
      -- What the other scope holds now stands for its own past.
      exact (h i).update (h j).distinct.records_byKind

theorem records_gives (e : Edit ι) (i : ι) :
    (e.apply scopes i).Records (enter past e (e.gives past) i) := by
  apply records_apply h
  cases e with
  | set i d => exact (h i).set d
  | update i j => exact (h i).update (h j)

theorem records_history (edits : List (Edit ι)) (i : ι) :
    (edits.foldl apply scopes i).Records (history scopes past edits i) := by
  induction edits generalizing scopes past with
  | nil => exact h i
  | cons e rest ih => exact ih (records_sets h e)

theorem records_foldl_gives (edits : List (Edit ι)) (i : ι) :
    (edits.foldl apply scopes i).Records
      (edits.foldl (fun past e => enter past e (e.gives past)) past i) := by
  induction edits generalizing scopes past with
  | nil => exact h i
  | cons e rest ih => exact ih (records_gives h e)

end Step

/-- An edit leaves the kinds alone that it is not about. -/
theorem ofKind_apply (h : ¬ e.Concerns scopes k) (i : ι) :
    (e.apply scopes i).ofKind k = (scopes i).ofKind k := by
  unfold apply
  by_cases hi : i = e.target
  · subst hi
    rw [Function.update_self]
    cases e with
    | set i d =>
        have hne : d.keyword ≠ k := h
        exact (ofKind_set (scopes i) d k).trans (if_neg hne)
    | update i j => exact ofKind_update_of_eq_nil (scopes i) (not_not.mp h)
  · rw [Function.update_of_ne hi]

/-- After any edits, a scope lists under each kind the names that were set in it, each once and in
the order in which they were set first, and for each name the definition that was set last: among
the definitions that the edits set in it one by one, and among all that was ever given to it. An
edit that is not about a kind changes nothing of the kind in any scope, and the part of an update
that is of one kind does to this kind what the update does and leaves the others alone. -/
theorem lists_run (edits : List (Edit ι)) (i : ι) (k : Keyword) :
    (run edits i).Lists k (history (fun _ => empty) (fun _ => []) edits i) ∧
      (run edits i).Lists k (given edits i) ∧
      (∀ e : Edit ι, ¬ e.Concerns (run edits) k →
        AgreeOn k (run (edits ++ [e]) i) (run edits i)) ∧
      ∀ j k', AgreeOn k ((run edits i).update ((run edits j).only k'))
        (if k' = k then (run edits i).update (run edits j) else run edits i) := by
  refine ⟨?_, ?_, ?_, ?_⟩
  · exact (records_history (fun _ => records_empty) edits i).lists k
  · exact (records_foldl_gives (fun _ => records_empty) edits i).lists k
  · intro e he
    have hrun : run (edits ++ [e]) = e.apply (run edits) := List.foldl_concat ..
    rw [hrun]
    exact agreeOn_of_ofKind_eq (ofKind_apply he i)
  · intro j k'
    apply agreeOn_of_ofKind_eq
    rw [ofKind_update_only, apply_ite (ofKind · k)]

/-- A definition without a body. -/
def bare (k : Keyword) (name document : Text) (line : Nat) : Definition :=
  { keyword := k, name, body := default, document, origin := Source.schemaName document, line }

/-- Two scopes that share names under one kind and under two, and a third one that takes over first
the one and then the other, changes a name and takes over itself. -/
def sharedEdits : List (Edit (Fin 3)) :=
  [.set 0 (bare .constant "Size" "a.yaml" 1), .set 0 (bare .object "Only" "a.yaml" 2),
    .set 0 (bare .constant "Only" "a.yaml" 3), .set 1 (bare .constant "New" "b.yaml" 1),
    .set 1 (bare .constant "Size" "b.yaml" 2), .update 2 0, .update 2 1,
    .set 2 (bare .constant "Only" "c.yaml" 1), .update 2 2,
    .set 0 (bare .constant "Late" "a.yaml" 4)]

theorem lists_run_shared :
    (run sharedEdits 2).names .constant = ["Size", "Only", "New"] ∧
      ((run sharedEdits 2).ofKind .constant).map Definition.document =
        ["b.yaml", "c.yaml", "b.yaml"] ∧
      (run sharedEdits 2).Lists .constant (history (fun _ => empty) (fun _ => []) sharedEdits 2) ∧
      (run sharedEdits 2).Lists .constant (given sharedEdits 2) ∧
      (run sharedEdits 2).names .object = ["Only"] ∧
      ¬ (Edit.update 2 1 : Edit (Fin 3)).Concerns (run sharedEdits) .object ∧
      AgreeOn .object (run (sharedEdits ++ [.update 2 1]) 2) (run sharedEdits 2) := by
  obtain ⟨hhistory, hgiven, -, -⟩ := lists_run sharedEdits 2 .constant
  obtain ⟨-, -, hagree, -⟩ := lists_run sharedEdits 2 .object
  have hnone : (run sharedEdits 1).ofKind .object = [] := List.isEmpty_iff.mp (by decide +kernel)
  have hconcerns : ¬ (Edit.update 2 1 : Edit (Fin 3)).Concerns (run sharedEdits) .object :=
    not_not.mpr hnone
  exact ⟨by decide +kernel, by decide +kernel, hhistory, hgiven, by decide +kernel, hconcerns,
    hagree _ hconcerns⟩

end Edit

end Scope

end RecordSchema
