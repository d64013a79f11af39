import Mathlib.Data.List.Chain
import Mathlib.Logic.Function.Iterate
import RecordSchema.Proofs.Program.Failure
import RecordSchema.Store.Library

/-!
# Import cycles

The documents that are open at one time import each other one after the other, and none of them is
open twice. So no more of them are open than can be read, which bounds the depth of the loader, and
a document that is met again while it is open closes a circle of imports.
-/

namespace RecordSchema

open Text Namespace Relation

namespace Source

variable {source : Source} {root path : Text}

/-- Whether paths lead from a document through its imports back to it, and come to no document twice
before. -/
structure IsCycle (source : Source) (chain : List Text) : Prop where
  closed : ∃ path rest, chain = path :: (rest ++ [path]) ∧ (path :: rest).Nodup
  isChain : chain.IsChain source.Imports

theorem IsCycle.exists_transGen {chain : List Text} (h : source.IsCycle chain) :
    ∃ path ∈ chain, TransGen source.Imports path path := by
  obtain ⟨path, rest, rfl, _⟩ := h.closed
  refine ⟨path, List.mem_cons_self, ?_⟩
  -- The first step leads to the next document of the chain, the others from there to its end.
  cases hrest : rest ++ [path] with
  | nil => simp at hrest
  | cons next more =>
      obtain ⟨hfirst, hmore⟩ := List.isChain_cons_cons.mp (hrest ▸ h.isChain)
      refine .head' hfirst (List.relationReflTransGen_of_exists_isChain_cons more hmore ?_)
      simp only [← hrest, List.getLast_append_singleton]

theorem IsSized.interrupted (h : source.IsSized) (canceled : Bool) :
    (source.interrupted canceled).IsSized := by
  cases canceled with
  | false => exact h
  | true =>
      intro paths _ hread
      cases paths with
      | nil => exact Nat.zero_le _
      | cons path rest =>
          obtain ⟨_, text, htext⟩ := hread path List.mem_cons_self
          cases htext

end Source

namespace Load

variable {source : Source} {opened : List Text} {path other : Text}

/-- Whether the loader can get to a path while documents are open: each of them imports the next,
the last one the path, and none of them is open twice. -/
structure IsOpen (source : Source) (opened : List Text) (path : Text) : Prop where
  nodup : opened.Nodup
  isChain : (opened ++ [path]).IsChain source.Imports

namespace IsOpen

theorem nil (source : Source) (path : Text) : IsOpen source [] path :=
  ⟨List.nodup_nil, List.isChain_singleton path⟩

theorem snoc (h : IsOpen source opened path) (hno : path ∉ opened)
    (hi : source.Imports path other) :
    IsOpen source (opened ++ [path]) other := by
  constructor
  · refine h.nodup.append (List.nodup_singleton path) ?_
    intro x hx hsingle
    exact hno (List.mem_singleton.mp hsingle ▸ hx)
  · refine h.isChain.append (List.isChain_singleton other) ?_
    intro x hx y hy
    rw [List.getLast?_concat, Option.mem_some_iff] at hx
    rw [List.head?_cons, Option.mem_some_iff] at hy
    exact hx ▸ hy ▸ hi

theorem exists_read (h : IsOpen source opened path) {x : Text} (hx : x ∈ opened) :
    ∃ text, source.read x = .ok text := by
  obtain ⟨before, after, rfl⟩ := List.append_of_mem hx
  have hchain := h.isChain
  cases hrest : after ++ [path] with
  | nil => simp at hrest
  | cons next more =>
      rw [List.append_assoc, List.cons_append, hrest, List.isChain_append_cons_cons] at hchain
      exact hchain.2.1.exists_read

theorem clean {first : Text} (h : IsOpen source (first :: opened) path) {x : Text}
    (hx : x ∈ opened) : Path.clean x = x := by
  obtain ⟨before, after, rfl⟩ := List.append_of_mem hx
  have hchain := h.isChain
  rw [List.cons_append, List.append_assoc, ← List.cons_append] at hchain
  exact (hchain.rel_getLast_head_of_append (List.cons_ne_nil _ _) (List.cons_ne_nil _ _)).clean

/-- No more documents are open than the source holds besides the first one. -/
theorem length_le (h : IsOpen source opened path) (hsource : source.IsSized) :
    opened.length ≤ source.size + 1 := by
  cases opened with
  | nil => exact Nat.zero_le _
  | cons first rest =>
      refine Nat.succ_le_succ (hsource rest (List.nodup_cons.mp h.nodup).2 ?_)
      intro x hx
      exact ⟨h.clean hx, h.exists_read (List.mem_cons_of_mem first hx)⟩

/-- The documents from the first occurrence of an open one on form a cycle. -/
theorem isCycle_chain (h : IsOpen source opened path) (hmem : path ∈ opened) :
    source.IsCycle (chain path opened) ∧ ∀ x ∈ chain path opened, x ∈ opened := by
  obtain ⟨before, after, rfl, hno⟩ := List.eq_append_cons_of_mem hmem
  have hchain : chain path (before ++ path :: after) = path :: (after ++ [path]) := by
    rw [chain, List.dropWhile_append_of_pos, List.dropWhile_cons_of_neg]
    · rfl
    · simp
    · intro x hx
      have hne : x ≠ path := fun heq => hno (heq ▸ hx)
      simpa using hne
  rw [hchain]
  refine ⟨⟨⟨path, after, rfl, ?_⟩, ?_⟩, ?_⟩
  · exact h.nodup.of_append_right
  · have hall := h.isChain
    rw [List.append_assoc] at hall
    exact hall.right_of_append
  · intro x hx
    rcases List.mem_cons.mp hx with rfl | hx
    · exact hmem
    · rcases List.mem_append.mp hx with hx | hx
      · exact List.mem_append_right _ (List.mem_cons_of_mem _ hx)
      · exact List.mem_singleton.mp hx ▸ hmem

end IsOpen

section Depth

theorem importAll_congr {f g : Text → Load Namespace} {refs : List Text} {n : Namespace}
    (h : ∀ ref ∈ refs, f (Source.resolve n.path ref) = g (Source.resolve n.path ref)) :
    importAll f refs n = importAll g refs n := by
  induction refs generalizing n with
  | nil => rfl
  | cons ref rest ih =>
      obtain ⟨href, hrest⟩ := List.forall_mem_cons.mp h
      funext s
      change (importAll f (ref :: rest) n).run s = (importAll g (ref :: rest) n).run s
      by_cases hc : n.imports.contains ref = true
      · rw [importAll, importAll, if_pos hc, if_pos hc, ih hrest]
      · rw [run_importAll_cons hc, run_importAll_cons hc, href]
        split
        · next m s₁ _ => rw [ih (n := n.importing ref m) hrest]
        · rfl

theorem importAll_bind_congr {load : Text → Load Namespace} {refs : List Text} {n : Namespace}
    {k k' : Namespace → Load Namespace} (h : ∀ n', n'.path = n.path → k n' = k' n') :
    importAll load refs n >>= k = importAll load refs n >>= k' := by
  funext s
  change (importAll load refs n >>= k).run s = (importAll load refs n >>= k').run s
  rw [run_bind, run_bind]
  split
  · next n' s₁ hrun => rw [h n' (path_of_importAll hrun)]
  · rfl

theorem entries_congr {f g : Text → Load Namespace} {es : List Entry} {n : Namespace}
    (h : ∀ x ∈ es, ∀ ref ∈ x.references n.path,
      f (Source.resolve n.path ref) = g (Source.resolve n.path ref)) :
    entries f es n = entries g es n := by
  induction es generalizing n with
  | nil => rfl
  | cons x rest ih =>
      obtain ⟨hx, hrest⟩ := List.forall_mem_cons.mp h
      rw [entries_cons, entries_cons]
      split
      · next hk =>
          split
          · rfl
          · next refs hrefs =>
              rw [Entry.references_eq hk hrefs] at hx
              rw [importAll_congr hx]
              refine importAll_bind_congr fun n' hn' => ih ?_
              rw [hn']
              exact hrest
      · split
        · exact ih (n := n.defining x) hrest
        · rfl

/-- What a visit does depends on the calls for the imports of the document alone. -/
theorem visit_congr {f g : List Text → Text → Load Namespace}
    (h : path ∉ opened → ∀ x, source.Imports path x →
      f (opened ++ [path]) x = g (opened ++ [path]) x) :
    visit source f opened path = visit source g opened path := by
  unfold visit
  refine bind_congr fun t => ?_
  split
  · rfl
  · split
    · rfl
    · next hc =>
        refine bind_congr fun _ => ?_
        split
        · rfl
        · next text hread =>
            split
            · rfl
            · next d hparse =>
                have hd := Source.document?_eq_some_iff.mpr ⟨text, hread, hparse⟩
                rw [entries_congr]
                intro x hx ref href
                exact h (by simpa using hc) _ (Source.imports_of_mem hd hx href)

/-- Visits below each other come to an end: from a depth on that is no less than the number of
documents, it makes no difference how deep they may go, nor what would be done deeper. -/
theorem iterate_visit_eq (hsource : source.IsSized) {depth depth' : Nat}
    (h : IsOpen source opened path) (hd : source.size + 2 ≤ depth + opened.length)
    (hd' : source.size + 2 ≤ depth' + opened.length)
    (deeper deeper' : List Text → Text → Load Namespace) :
    (visit source)^[depth] deeper opened path = (visit source)^[depth'] deeper' opened path := by
  induction depth generalizing depth' opened path with
  | zero =>
      have hlength := h.length_le hsource
      omega
  | succ depth ih =>
      cases depth' with
      | zero =>
          have hlength := h.length_le hsource
          omega
      | succ depth' =>
          rw [Function.iterate_succ_apply', Function.iterate_succ_apply']
          apply visit_congr
          intro hno x hi
          apply ih (h.snoc hno hi)
          · rw [List.length_append, List.length_singleton]
            omega
          · rw [List.length_append, List.length_singleton]
            omega

theorem document_eq_iterate (source : Source) (depth : Nat) :
    document source depth =
      (visit source)^[depth] fun opened path => refuse (.importCycle (chain path opened)) := by
  induction depth with
  | zero => rfl
  | succ depth ih =>
      rw [Function.iterate_succ_apply', ← ih]
      rfl

end Depth

/-- Where all documents that can be reached are well shaped, loading fails at a cycle only. -/
theorem exists_cycle_of_document_eq_error (hsource : source.IsSized) {depth : Nat}
    (h : IsOpen source opened path) (hd : source.size + 2 ≤ depth + opened.length)
    (hall : ∀ x, ReflTransGen source.Imports path x → source.isWellShaped x = true)
    {s s' : Loading} {e : LoadError}
    (hrun : (document source depth opened path).run s = (.error e, s')) :
    ∃ chain, e.cycle? = some chain ∧ source.IsCycle chain ∧
      ∀ x ∈ chain, x ∈ opened ∨ ReflTransGen source.Imports path x := by
  induction depth generalizing opened path s e with
  | zero =>
      have hlength := h.length_le hsource
      omega
  | succ depth ih =>
      rcases visit_eq_error_of_isWellShaped (hall path .refl) hrun with
        ⟨hmem, rfl⟩ | ⟨hno, ref, cause, hi, ⟨t, hfails⟩, rfl⟩
      · obtain ⟨hcycle, hsub⟩ := h.isCycle_chain hmem
        exact ⟨_, rfl, hcycle, fun x hx => Or.inl (hsub x hx)⟩
      · obtain ⟨chain, hchain, hcycle, hsub⟩ := ih (h.snoc hno hi)
          (by rw [List.length_append, List.length_singleton]; omega)
          (fun y hy => hall y (.head hi hy)) hfails
        refine ⟨chain, hchain, hcycle, fun y hy => ?_⟩
        rcases hsub y hy with hy | hy
        · rcases List.mem_append.mp hy with hy | hy
          · exact Or.inl hy
          · exact Or.inr (List.mem_singleton.mp hy ▸ .refl)
        · exact Or.inr (.head hi hy)

end Load

namespace Program

/-- Loads a root document by a function for the documents below others. -/
def loadWith (load : (opened : List Text) → Text → Load Namespace) (root : Text) :
    Except LoadError Program × Loading :=
  let (result, state) := (load [] root).run {}
  (result.map fun n => ⟨n, state.done⟩, state)

theorem load_eq_loadWith (source : Source) (root : Text) :
    load source root = loadWith (Load.document source (source.size + 3)) root := rfl

theorem load_eq_error_iff {source : Source} {root : Text} {e : LoadError} :
    (load source root).1 = .error e ↔
      ∃ s, (Load.document source (source.size + 3) [] root).run {} = (.error e, s) := by
  unfold load
  rcases (Load.document source (source.size + 3) [] root).run {} with ⟨e' | n, s⟩
  · constructor
    · intro h
      cases h
      exact ⟨s, rfl⟩
    · rintro ⟨s', h⟩
      cases h
      rfl
  · constructor
    · intro h
      cases h
    · rintro ⟨s', h⟩
      cases h

/-- Loading from a library comes to an end: with as many visits below each other as there are
documents, and two more, nothing depends on what deeper ones would do. Where all documents that can
be reached are well shaped it fails exactly if one of them imports itself through others, and names
such a cycle. -/
theorem load_eq_error_iff_cycle (l : Library) (root : Text) :
    (∀ canceled depth deeper, l.documents.length + 2 ≤ depth →
      loadWith ((Load.visit (l.source.interrupted canceled))^[depth] deeper) root =
        load (l.source.interrupted canceled) root) ∧
    ((∀ path, ReflTransGen l.source.Imports root path → l.source.isWellShaped path = true) →
      ((∃ e, (load l.source root).1 = .error e) ↔
        ∃ path, ReflTransGen l.source.Imports root path ∧ TransGen l.source.Imports path path) ∧
      ∀ e, (load l.source root).1 = .error e →
        ∃ chain, e.cycle? = some chain ∧ l.source.IsCycle chain ∧
          ∀ path ∈ chain, ReflTransGen l.source.Imports root path) := by
  constructor
  · intro canceled depth deeper hdepth
    have hsize : (l.source.interrupted canceled).size = l.documents.length := by
      cases canceled <;> rfl
    rw [load_eq_loadWith, Load.document_eq_iterate]
    unfold loadWith
    rw [Load.iterate_visit_eq (l.isSized_source.interrupted canceled) (.nil _ root)]
    · rw [hsize]
      exact hdepth
    · exact Nat.le_succ _
  · intro hall
    have hcycle : ∀ e, (load l.source root).1 = .error e →
        ∃ chain, e.cycle? = some chain ∧ l.source.IsCycle chain ∧
          ∀ path ∈ chain, ReflTransGen l.source.Imports root path := by
      intro e he
      obtain ⟨s, hrun⟩ := load_eq_error_iff.mp he
      obtain ⟨chain, hchain, hcycle, hsub⟩ := Load.exists_cycle_of_document_eq_error
        l.isSized_source (.nil _ root) (Nat.le_succ _) hall hrun
      exact ⟨chain, hchain, hcycle, fun x hx => (hsub x hx).resolve_left List.not_mem_nil⟩
    refine ⟨⟨?_, ?_⟩, hcycle⟩
    · rintro ⟨e, he⟩
      obtain ⟨chain, _, hisCycle, hsub⟩ := hcycle e he
      obtain ⟨path, hmem, htrans⟩ := hisCycle.exists_transGen
      exact ⟨path, hsub path hmem, htrans⟩
    · rintro ⟨path, hreach, htrans⟩
      cases hload : (load l.source root).1 with
      | error e => exact ⟨e, rfl⟩
      | ok p =>
          have hfrom := loadedFrom_of_load hload
          have hroot : root ∈ p.namespaces.map Namespace.path :=
            List.mem_map.mpr ⟨p.root, hfrom.root_mem, hfrom.root_path⟩
          have hpath := hfrom.loaded.mem_of_reachable hroot hreach
          exact absurd htrans (hfrom.loaded.not_transGen_imports hpath)

/-- Documents with a cycle that the root is not part of, and one that is imported twice. -/
def cyclicDocuments : Library :=
  .ofList [("a.yaml", "Import: [d.yaml, b.yaml]\n"), ("b.yaml", "Import: lib/c.yaml\n"),
    ("lib/c.yaml", "Import: [../d.yaml, .././b.yaml]\n"), ("d.yaml", "Constant N: 1\n")]

theorem load_eq_error_iff_cycle_shared :
    (∀ path, ReflTransGen cyclicDocuments.source.Imports "a.yaml" path →
      cyclicDocuments.source.isWellShaped path = true) ∧
    (∃ path, ReflTransGen cyclicDocuments.source.Imports "a.yaml" path ∧
      TransGen cyclicDocuments.source.Imports path path) ∧
    ∃ e, (load cyclicDocuments.source "a.yaml").1 = .error e ∧
      e.cycle? = some (["b.yaml", "lib/c.yaml", "b.yaml"] : List Text) ∧
      cyclicDocuments.source.IsCycle ["b.yaml", "lib/c.yaml", "b.yaml"] := by
  have hclosed : ∀ path ∈ (["a.yaml", "b.yaml", "lib/c.yaml", "d.yaml"] : List Text),
      cyclicDocuments.source.isWellShaped path = true ∧
        ∀ other ∈ cyclicDocuments.source.importsOf path,
          other ∈ (["a.yaml", "b.yaml", "lib/c.yaml", "d.yaml"] : List Text) := by decide +kernel
  have hall : ∀ path, ReflTransGen cyclicDocuments.source.Imports "a.yaml" path →
      cyclicDocuments.source.isWellShaped path = true := by
    intro path hreach
    have hknown : path ∈ (["a.yaml", "b.yaml", "lib/c.yaml", "d.yaml"] : List Text) := by
      induction hreach with
      | refl => exact List.mem_cons_self
      | tail _ hi ih => exact (hclosed _ ih).2 _ hi
    exact (hclosed path hknown).1
  have hfails : (match (load cyclicDocuments.source "a.yaml").1 with
      | .error e => e.cycle?
      | .ok _ => none) = some (["b.yaml", "lib/c.yaml", "b.yaml"] : List Text) := by decide +kernel
  split at hfails
  · next e he =>
      obtain ⟨hiff, hcycle⟩ := (load_eq_error_iff_cycle cyclicDocuments "a.yaml").2 hall
      obtain ⟨chain, hchain, hisCycle, _⟩ := hcycle e he
      cases hfails.symm.trans hchain
      exact ⟨hall, hiff.mp ⟨e, he⟩, e, he, hfails, hisCycle⟩
  · cases hfails

end Program

end RecordSchema
