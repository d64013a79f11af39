import RecordSchema.Proofs.Descriptor.Value
import RecordSchema.Proofs.Value.Literal
import RecordSchema.Proofs.Yaml.Settled
import RecordSchema.Session.Arrangement

/-!
# Builds that no arrangement changes

What is built comes out the same in all arrangements if and only if it is settled: a failure names
the only unknown verb or shows a key in the only way, and a bundle is written in another format than
YAML or has only defaults with one text.
-/

namespace RecordSchema

namespace Yaml.DecodeError

/-- Whether a refusal is told in one way. -/
def isSettled : DecodeError → Bool
  | unknown _ name all => all.all (· == name)
  | invalidKey key shown => key.isTold && key.literal == shown
  | within _ cause => cause.isSettled
  | _ => true

theorem eq_of_retold_iff : ∀ e : DecodeError, (∀ e', e.Retold e' → e' = e) ↔ e.isSettled = true
  | unknown what name all => by
      simp only [isSettled, List.all_eq_true, beq_iff_eq]
      constructor
      · intro h name' hname'
        cases h _ (.unknown hname')
        rfl
      · intro h e' he'
        cases he' with
        | same _ => rfl
        | unknown hname' => rw [h _ hname']
  | invalidKey key shown => by
      rw [isSettled, Bool.and_eq_true, Value.isTold_iff, beq_iff_eq]
      constructor
      · intro h
        have hshown : ∀ shown', key.Tells shown' → shown' = shown := by
          intro shown' hshown'
          cases h _ (.invalidKey hshown')
          rfl
        have hliteral := hshown _ key.tells_literal
        exact ⟨fun shown' hshown' => (hshown shown' hshown').trans hliteral.symm, hliteral⟩
      · rintro ⟨htold, rfl⟩ e' he'
        cases he' with
        | same _ => rfl
        | invalidKey hshown' => rw [htold _ hshown']
  | within part cause => by
      rw [isSettled, ← eq_of_retold_iff cause]
      constructor
      · intro h cause' hcause'
        cases h _ (.within hcause')
        rfl
      · intro h e' he'
        cases he' with
        | same _ => rfl
        | within hcause' => rw [h _ hcause']
  | faults _ => iff_of_true (by rintro _ ⟨⟩; rfl) rfl
  | misfit _ => iff_of_true (by rintro _ ⟨⟩; rfl) rfl
  | invalidBase64 => iff_of_true (by rintro _ ⟨⟩; rfl) rfl
  | excessiveAliasing => iff_of_true (by rintro _ ⟨⟩; rfl) rfl
  | containsItself _ => iff_of_true (by rintro _ ⟨⟩; rfl) rfl
  | mergeOfNoMapping => iff_of_true (by rintro _ ⟨⟩; rfl) rfl
  | refused _ => iff_of_true (by rintro _ ⟨⟩; rfl) rfl

end Yaml.DecodeError

namespace SessionError

/-- Whether a failure is told in one way. -/
def isSettled : SessionError → Bool
  | .schema (.malformed _ (.body (.attributes cause))) => cause.isSettled
  | _ => true

theorem eq_of_retold_iff (e : SessionError) :
    (∀ e', e.Retold e' → e' = e) ↔ e.isSettled = true := by
  unfold isSettled
  split
  · next place cause =>
      rw [← cause.eq_of_retold_iff]
      constructor
      · intro h cause' hcause'
        cases h _ (.attributes hcause')
        rfl
      · intro h e' he'
        cases he' with
        | same _ => rfl
        | attributes hcause' => rw [h _ hcause']
  · next hother =>
      refine iff_of_true ?_ rfl
      intro e' he'
      cases he' with
      | same _ => rfl
      | attributes _ => exact absurd rfl (hother _ _)

/-- Whether two failures are the same, or are about the same attributes and tell their cause in two
ways. -/
inductive Alike : SessionError → SessionError → Prop where
  | same (e : SessionError) : Alike e e
  | attributes {place : Location} {cause first second : Yaml.DecodeError}
      (hfirst : cause.Retold first)
      (hsecond : cause.Retold second) :
      Alike (.schema (.malformed place (.body (.attributes first))))
        (.schema (.malformed place (.body (.attributes second))))

theorem Retold.alike {e first second : SessionError} (hfirst : e.Retold first)
    (hsecond : e.Retold second) : first.Alike second := by
  cases hfirst with
  | same _ =>
      cases hsecond with
      | same _ => exact .same _
      | attributes h => exact .attributes (.same _) h
  | attributes h =>
      cases hsecond with
      | same _ => exact .attributes h (.same _)
      | attributes h' => exact .attributes h h'

end SessionError

section Bundle

open Yaml.Write

theorem Yaml.Write.passes_hasOneText : Value.Passes HasOneText where
  list_iff := hasOneText_list_iff
  record_iff := hasOneText_record_iff
  text := fun t => (isSettled_iff _ (.text t)).mp rfl
  int := fun i => (isSettled_iff _ (.int i)).mp rfl
  bool := fun b => (isSettled_iff _ (.bool b)).mp rfl

/-- Whether the defaults of all fields have one text each, where they stand in the document of the
bundle. -/
def Bundle.isSettled (b : Bundle) : Bool :=
  b.objects.all fun o => o.fields.all fun f => f.default.all (Yaml.Write.isSettled 10)

theorem Bundle.isSettled_iff {b : Bundle} :
    b.isSettled = true ↔ ∀ o ∈ b.objects, ∀ f ∈ o.fields, ∀ v ∈ f.default, HasOneText 10 v := by
  simp only [isSettled, List.all_eq_true, Option.all_eq_true, Yaml.Write.isSettled_iff,
    Option.mem_def]

/-- Leaving out a time leaves out nothing that has several texts. -/
theorem Format.default_withoutZeroTime_iff {f : FieldDescriptor} {n : Nat} :
    (∀ v ∈ (withoutZeroTime f).default, HasOneText n v) ↔ ∀ v ∈ f.default, HasOneText n v := by
  unfold withoutZeroTime
  split
  · next t ht =>
      split
      · refine iff_of_true (by rintro _ ⟨⟩) ?_
        rw [ht]
        rintro _ ⟨⟩
        exact (Yaml.Write.isSettled_iff n (.time t)).mp rfl
      · rfl
  · rfl

theorem Format.hasOneText_yamlRecord_iff {b : Bundle} :
    HasOneText 0 (yamlRecord b) ↔ b.isSettled = true := by
  have hfloat : ∀ {n d}, HasOneText n (.float d) := fun {n d} =>
    (Yaml.Write.isSettled_iff n (.float d)).mp rfl
  have hnone : ∀ {n}, HasOneText n (.list []) :=
    fun {n} => (Yaml.Write.isSettled_iff n (.list [])).mp rfl
  rw [Bundle.isSettled_iff, yamlRecord, Bundle.passes_value_iff passes_hasOneText]
  simp only [List.forall_mem_map, ObjectDescriptor.passes_value_iff passes_hasOneText hnone,
    FieldDescriptor.passes_value_iff passes_hasOneText, hfloat, implies_true, true_and,
    default_withoutZeroTime_iff]

/-- A bundle has one text in a format if and only if that is not YAML or the defaults are
settled. -/
theorem Format.eq_of_shows_iff {f : Format} {b : Bundle} {text : Text}
    (h : f.bundle {} b = .ok text) :
    (∀ text', f.Shows b text' → text' = text) ↔ (f = .yaml → b.isSettled = true) := by
  cases f with
  | json => exact iff_of_true (fun text' h' => Except.ok.inj (h'.symm.trans h)) (by rintro ⟨⟩)
  | table => exact iff_of_true (fun text' h' => Except.ok.inj (h'.symm.trans h)) (by rintro ⟨⟩)
  | yaml =>
      cases h
      rw [← hasOneText_yamlRecord_iff, ← Yaml.Write.isSettled_iff, ← showsDocument_eq_iff]
      exact ⟨fun h _ => h, fun h => h rfl⟩

end Bundle

namespace Built

/-- Whether a build comes out in one way. -/
def isSettled : Except SessionError Built → Bool
  | .error e => e.isSettled
  | .ok b => b.format != .yaml || b.bundle.isSettled

theorem isSettled_ok_iff {b : Built} :
    isSettled (.ok b) = true ↔ (b.format = .yaml → b.bundle.isSettled = true) := by
  simp only [isSettled, Bool.or_eq_true, bne_iff_ne, ne_eq, or_iff_not_imp_left, not_not]

end Built

namespace Arrangement

theorem exists_tell_eq {e e' : SessionError} (h : e.Retold e') :
    ∃ a : Arrangement, a.tell e = e' := by
  classical
  refine ⟨{ asRead with
    tell := fun cause => if cause = e then e' else cause
    retold := fun cause => ?_ }, if_pos rfl⟩
  split
  · next hcause => exact hcause ▸ h
  · exact .same cause

theorem exists_write_eq {b : Built} {text : Text} (h : b.format.Shows b.bundle text) :
    ∃ a : Arrangement, a.write b = text := by
  classical
  refine ⟨{ asRead with
    write := fun other => if other = b then text else other.output
    shows := fun other hother => ?_ }, if_pos rfl⟩
  split
  · next heq => exact heq ▸ h
  · exact Format.shows_of_bundle hother

variable {x : Except SessionError Built}

/-- A build comes out the same in all arrangements if and only if it is settled. -/
theorem apply_eq_iff (hx : ∀ b, x = .ok b → b.format.bundle {} b.bundle = .ok b.output) :
    (∀ a a' : Arrangement, a.apply x = a'.apply x) ↔ Built.isSettled x = true := by
  cases x with
  | error e =>
      rw [Built.isSettled, ← e.eq_of_retold_iff]
      constructor
      · intro h e' he'
        obtain ⟨a, ha⟩ := exists_tell_eq he'
        exact ha ▸ Except.error.inj (h a asRead)
      · intro h a a'
        rw [apply, apply, h _ (a.retold e), h _ (a'.retold e)]
  | ok b =>
      have hb := hx b rfl
      rw [Built.isSettled_ok_iff, ← Format.eq_of_shows_iff hb]
      constructor
      · intro h text htext
        obtain ⟨a, ha⟩ := exists_write_eq htext
        exact ha ▸ congrArg Built.output (Except.ok.inj (h a asRead))
      · intro h a a'
        rw [apply, apply, present, present, h _ (a.shows b hb), h _ (a'.shows b hb)]

end Arrangement

end RecordSchema
