import MigrationPlan.Proofs.Job.FirstSeen
import MigrationPlan.Proofs.Text.Case
import MigrationPlan.Selection.Pattern

/- Keywords and the patterns they make up. A keyword is a property, an underscore and a value, and
   `all` is one too; tokens that are taken up one after the other leave a flag and the conditions in
   the order in which they come first. -/
namespace MigrationPlan
open Text

namespace Condition

inductive Spelt : String → Condition → Prop where
  | flag {property text : String} {make : Bool → Condition} {value : Bool}
      (known : (property, make) ∈ keywordProperties) (said : (text, value) ∈ flagValues) :
      Spelt (property ++ "_" ++ text) (make value)
  | ofType {t : FieldType} (known : t ∈ FieldType.named) : Spelt ("type_" ++ t.name) (.ofType t)

theorem mem_of_lookup {α : Type} {table : List (String × α)} {key : String} {a : α}
    (found : table.lookup key = some a) :
    (key, a) ∈ table := by
  obtain ⟨before, after, parts, _⟩ := List.lookup_eq_some_iff.mp found
  rw [parts]
  simp

theorem ofName_eq_some {s : String} {t : FieldType} :
    FieldType.ofName? s = some t ↔ t ∈ FieldType.named ∧ t.name = fold s := by
  constructor
  · intro found
    exact ⟨List.mem_of_find?_eq_some found, by simpa using List.find?_some found⟩
  · rintro ⟨known, name⟩
    rw [FieldType.ofName?, ← name]
    revert known
    cases t <;> decide

theorem ofList_underscore {s value : List Char} {c : Char}
    (behind : s.dropWhile (· != '_') = c :: value) :
    String.ofList s = String.ofList (s.takeWhile (· != '_')) ++ "_" ++ String.ofList value := by
  have stops : (c != '_') = false := by
    have head := List.head_dropWhile_not (· != '_') (l := s) (by simp [behind])
    simpa [behind] using head
  obtain rfl : c = '_' := by simpa using stops
  have parts : s = s.takeWhile (· != '_') ++ ['_'] ++ value := by
    rw [List.append_assoc, List.singleton_append, ← behind, List.takeWhile_append_dropWhile]
  have text := congrArg String.ofList parts
  rwa [String.ofList_append, String.ofList_append] at text

theorem spelt_of_ofFolded {s : List Char} {c : Condition} (lower : ∀ a ∈ s, a.toLower = a)
    (found : ofFolded? s = some c) :
    Spelt (String.ofList s) c := by
  unfold ofFolded? at found
  dsimp only at found
  split at found
  · cases found
  next d value behind =>
    rw [ofList_underscore behind]
    split at found
    next isType =>
      obtain ⟨t, named, rfl⟩ := Option.map_eq_some_iff.mp found
      obtain ⟨known, name⟩ := ofName_eq_some.mp named
      have lowerValue : fold (String.ofList value) = String.ofList value := by
        have inText : ∀ a ∈ value, a ∈ s := fun a member =>
          (List.dropWhile_sublist _).mem (behind ▸ List.mem_cons_of_mem d member)
        rw [fold_ofList]
        exact congrArg String.ofList
          ((List.map_congr_left fun a member => lower a (inText a member)).trans value.map_id)
      rw [beq_iff_eq.mp isType, ← lowerValue, ← name]
      exact .ofType known
    next =>
      obtain ⟨flag, said, found⟩ := Option.bind_eq_some_iff.mp found
      obtain ⟨make, known, found⟩ := Option.bind_eq_some_iff.mp found
      cases found
      exact .flag (mem_of_lookup known) (mem_of_lookup said)

theorem ofFolded_of_spelt {s : String} {c : Condition} (spelt : Spelt s c) :
    ofFolded? s.toList = some c := by
  cases spelt with
  | flag known said =>
    simp only [keywordProperties, flagValues, List.mem_cons, Prod.mk.injEq, List.not_mem_nil,
      or_false] at known said
    rcases said with ⟨rfl, rfl⟩ | ⟨rfl, rfl⟩ <;>
    rcases known with ⟨rfl, rfl⟩ | ⟨rfl, rfl⟩ | ⟨rfl, rfl⟩ | ⟨rfl, rfl⟩ | ⟨rfl, rfl⟩ | ⟨rfl, rfl⟩
      | ⟨rfl, rfl⟩ | ⟨rfl, rfl⟩ | ⟨rfl, rfl⟩ <;> decide +kernel
  | @ofType t known =>
    revert known
    cases t <;> decide +kernel

theorem ofKeyword_eq_some {token : String} {c : Condition} :
    ofKeyword? token = some c ↔ Spelt (fold (trimmed token)) c := by
  constructor
  · intro found
    have lower : ∀ a ∈ (fold (trimmed token)).toList, a.toLower = a := by
      intro a member
      rw [toList_fold] at member
      obtain ⟨b, _, rfl⟩ := List.mem_map.mp member
      exact toLower_toLower b
    have spelt := spelt_of_ofFolded lower found
    rwa [String.ofList_toList] at spelt
  · exact ofFolded_of_spelt

end Condition

namespace Pattern

theorem isAll_not_condition {token : String} (all : isAll token = true) :
    Condition.ofKeyword? token = none := by
  have text : fold (trimmed token) = "all" := by
    have lower : fold "all" = "all" := by decide +kernel
    rw [← lower]
    exact (sameName_iff _ _).mp all
  rw [Condition.ofKeyword?, text]
  decide +kernel

theorem ofTokens_concat (l : List String) (token : String) :
    ofTokens (l ++ [token]) = (ofTokens l).accept token := by
  rw [ofTokens, List.foldl_append]
  rfl

theorem accept_all (p : Pattern) (token : String) :
    (p.accept token).all = (p.all || isAll token) := by
  unfold accept
  split
  next all => simp [all]
  next other =>
    cases Condition.ofKeyword? token with
    | none => simp [other]
    | some c =>
      simp only [Option.elim_some, require, other, Bool.or_false]
      split <;> rfl

theorem accept_conditions (p : Pattern) (token : String) :
    (p.accept token).conditions =
      (Condition.ofKeyword? token).elim p.conditions fun c =>
        if p.conditions.contains c then p.conditions else p.conditions ++ [c] := by
  unfold accept
  split
  next all => rw [isAll_not_condition all, Option.elim_none]
  next =>
    cases Condition.ofKeyword? token with
    | none => rfl
    | some c =>
      simp only [Option.elim_some, require]
      split <;> rfl

theorem ofTokens_all (l : List String) : (ofTokens l).all = l.any isAll := by
  induction l using List.reverseRecOn with
  | nil => rfl
  | append_singleton l token ih => simp [ofTokens_concat, accept_all, ih]

theorem ofTokens_conditions (l : List String) :
    FirstSeen (· == ·) (l.filterMap Condition.ofKeyword?) (ofTokens l).conditions := by
  induction l using List.reverseRecOn with
  | nil => exact .nil
  | append_singleton l token ih =>
    rw [ofTokens_concat, accept_conditions, List.filterMap_append]
    cases known : Condition.ofKeyword? token with
    | none => simpa [known] using ih
    | some c =>
      have last : [token].filterMap Condition.ofKeyword? = [c] := by simp [known]
      have seen :
          (ofTokens l).conditions.contains c = (l.filterMap Condition.ofKeyword?).contains c := by
        rw [List.contains_eq_any_beq, List.contains_eq_any_beq]
        exact ih.any_kept (fun a b d ab bd => by rwa [beq_iff_eq.mp ab]) c
      rw [last, Option.elim_some, seen]
      split
      next again => exact .seen ih ⟨c, List.contains_iff_mem.mp again, beq_self_eq_true c⟩
      next fresh =>
        refine .new ih fun d member => ?_
        rw [beq_eq_false_iff_ne]
        rintro rfl
        exact fresh (List.contains_iff_mem.mpr member)

theorem isEmpty_ofTokens (l : List String) :
    (ofTokens l).isEmpty = true ↔ ∀ token ∈ l, isKeyword token = false := by
  have none := (ofTokens_conditions l).nil_iff
  rw [List.filterMap_eq_nil_iff] at none
  simp only [isEmpty, Bool.and_eq_true, Bool.not_eq_true', List.isEmpty_iff, none, ofTokens_all,
    List.any_eq_false, isKeyword, Bool.or_eq_false_iff, Option.isSome_eq_false_iff,
    Option.isNone_iff_eq_none]
  constructor
  · rintro ⟨notAll, noCondition⟩ token member
    exact ⟨by simpa using notAll token member, noCondition token member⟩
  · intro noKeyword
    exact ⟨fun token member => by simp [(noKeyword token member).1],
      fun token member => (noKeyword token member).2⟩

/-- Whether a name is a keyword as it stands: `all`, or `<property>_<value>`. -/
def Keyword (name : String) : Prop :=
  sameName name "all" = true ∨ ∃ c, Condition.Spelt (fold name) c

theorem isKeyword_iff (token : String) : isKeyword token = true ↔ Keyword (trimmed token) := by
  simp only [isKeyword, Bool.or_eq_true, isAll, Option.isSome_iff_exists,
    Condition.ofKeyword_eq_some, Keyword]

end Pattern

end MigrationPlan
