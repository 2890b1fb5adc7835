import Mathlib.Data.List.Induction
import Mathlib.Data.List.Nodup
import MigrationPlan.Proofs.Selection.Expansion

/- Snapshots with an index. The fields stand in a list, and a table has the position of each folded
   name; every change keeps the two in step, so that a field is found under its name as if the list
   were searched. -/
namespace MigrationPlan
open Text

inductive FieldChange where
  | add (f : Field)
  | own (owner : String)
  deriving DecidableEq, Repr

structure IndexedFields where
  fields : List Field := []
  positions : Std.HashMap String Nat := ∅

namespace IndexedFields

def add (x : IndexedFields) (f : Field) : IndexedFields :=
  match x.positions[fold f.name]? with
  | some i => { x with fields := x.fields.set i f }
  | none =>
    { fields := x.fields ++ [f], positions := x.positions.insert (fold f.name) x.fields.length }

def ownedBy (x : IndexedFields) (owner : String) : IndexedFields :=
  { x with fields := x.fields.map fun f => { f with owner := some owner } }

def field? (x : IndexedFields) (name : String) : Option Field :=
  x.positions[fold name]?.bind fun i => x.fields[i]?

def hasField (x : IndexedFields) (name : String) : Bool := x.positions.contains (fold name)

def apply (x : IndexedFields) : FieldChange → IndexedFields
  | .add f => x.add f
  | .own owner => x.ownedBy owner

def after (x : IndexedFields) (changes : List FieldChange) : IndexedFields := changes.foldl apply x

end IndexedFields

namespace Snapshot

def blank (name label : String) (custom : Bool) : Snapshot :=
  { name, label, custom, fields := [], nodup := List.Pairwise.nil }

def apply (s : Snapshot) : FieldChange → Snapshot
  | .add f => s.add f
  | .own owner => s.ownedBy owner

def after (s : Snapshot) (changes : List FieldChange) : Snapshot := changes.foldl apply s

end Snapshot

def Field.apply (f : Field) : FieldChange → Field
  | .add _ => f
  | .own owner => { f with owner := some owner }

def Field.after (f : Field) (changes : List FieldChange) : Field := changes.foldl apply f

theorem Field.name_after (f : Field) (changes : List FieldChange) :
    (f.after changes).name = f.name := by
  induction changes generalizing f with
  | nil => rfl
  | cons c changes ih =>
    have same : (f.apply c).name = f.name := by cases c <;> rfl
    exact (ih (f.apply c)).trans same

section PlaceField
variable {l : List Field} {f g : Field} {i : Nat}

theorem placeField_new (new : fold f.name ∉ foldedNames l) : placeField l f = l ++ [f] := by
  have absent : (l.any fun g => sameName g.name f.name) = false := by
    rw [List.any_eq_false]
    intro g member same
    exact new (List.mem_map.mpr ⟨g, member, (sameName_iff _ _).mp same⟩)
  rw [placeField, absent, if_neg Bool.false_ne_true]

theorem placeField_known (known : fold f.name ∈ foldedNames l) :
    placeField l f = l.map fun g => if sameName g.name f.name then f else g := by
  obtain ⟨g, member, same⟩ := List.mem_map.mp known
  rw [placeField, if_pos (List.any_eq_true.mpr ⟨g, member, (sameName_iff _ _).mpr same⟩)]

theorem placeField_set (nodup : (foldedNames l).Nodup)
    (here : (foldedNames l)[i]? = some (fold f.name)) :
    placeField l f = l.set i f := by
  have inside : i < (foldedNames l).length := (List.getElem?_eq_some_iff.mp here).choose
  rw [placeField_known (List.mem_of_getElem? here)]
  apply List.ext_getElem?
  intro j
  rw [List.getElem?_map, List.getElem?_set]
  rw [foldedNames, List.getElem?_map, Option.map_eq_some_iff] at here
  obtain ⟨g, atPosition, sameFolded⟩ := here
  by_cases other : i = j
  · subst other
    rw [if_pos rfl, if_pos (by simpa [foldedNames] using inside), atPosition, Option.map_some,
      if_pos ((sameName_iff _ _).mpr sameFolded)]
  · rw [if_neg other]
    cases elsewhere : l[j]? with
    | none => rfl
    | some k =>
      have apart : fold k.name ≠ fold f.name := by
        intro same
        refine other ((List.getElem?_inj inside nodup).mp ?_)
        rw [foldedNames, List.getElem?_map, List.getElem?_map, atPosition, elsewhere,
          Option.map_some, Option.map_some, sameFolded, same]
      rw [Option.map_some, if_neg (fun same => apart ((sameName_iff _ _).mp same))]

theorem mem_placeField : g ∈ placeField l f ↔ g = f ∨ g ∈ l ∧ fold g.name ≠ fold f.name := by
  by_cases known : fold f.name ∈ foldedNames l
  · rw [placeField_known known, List.mem_map]
    constructor
    · rintro ⟨k, member, rfl⟩
      by_cases same : sameName k.name f.name = true
      · exact Or.inl (if_pos same)
      · rw [if_neg same]
        exact Or.inr ⟨member, fun eq => same ((sameName_iff _ _).mpr eq)⟩
    · rintro (rfl | ⟨member, apart⟩)
      · obtain ⟨k, member, same⟩ := List.mem_map.mp known
        exact ⟨k, member, if_pos ((sameName_iff _ _).mpr same)⟩
      · exact ⟨g, member, if_neg (fun same => apart ((sameName_iff _ _).mp same))⟩
  · rw [placeField_new known, List.mem_append, List.mem_singleton, or_comm]
    have apart : g ∈ l → fold g.name ≠ fold f.name := by
      intro member same
      exact known (List.mem_map.mpr ⟨g, member, same⟩)
    exact or_congr_right (iff_self_and.mpr apart)

end PlaceField

theorem getElem?_new {names : List String} {name key : String} {i : Nat} {old : Option Nat}
    (new : name ∉ names) (position : old = some i ↔ names[i]? = some key) :
    (if name == key then some names.length else old) = some i ↔
      (names ++ [name])[i]? = some key := by
  rw [List.getElem?_append]
  by_cases same : name = key
  · subst same
    rw [if_pos BEq.rfl, Option.some.injEq]
    by_cases inside : i < names.length
    · have other : names[i]? ≠ some name := fun here => new (List.mem_of_getElem? here)
      rw [if_pos inside]
      exact iff_of_false (Nat.ne_of_gt inside) other
    · rw [if_neg inside, List.getElem?_singleton]
      split_ifs with last <;> simp <;> omega
  · rw [if_neg (by simpa using same), position]
    by_cases inside : i < names.length
    · rw [if_pos inside]
    · have outside : names[i]? = none := List.getElem?_eq_none (Nat.le_of_not_lt inside)
      rw [if_neg inside, outside, List.getElem?_singleton]
      split_ifs <;> simp [same]

theorem Snapshot.ext {s t : Snapshot} (name : s.name = t.name) (label : s.label = t.label)
    (custom : s.custom = t.custom) (fields : s.fields = t.fields) : s = t := by
  cases s
  cases t
  cases name
  cases label
  cases custom
  cases fields
  rfl

theorem Snapshot.fields_add (s : Snapshot) (f : Field) : (s.add f).fields = placeField s.fields f :=
  rfl

theorem Snapshot.field_eq_some (s : Snapshot) {name : String} {g : Field} :
    s.field? name = some g ↔ g ∈ s.fields ∧ sameName g.name name = true := by
  constructor
  · exact Snapshot.field_found
  · rintro ⟨member, same⟩
    cases found : s.field? name with
    | none => exact absurd same (List.find?_eq_none.mp found g member)
    | some f =>
      obtain ⟨first, sameFirst⟩ := Snapshot.field_found found
      have sameFolded := ((sameName_iff _ _).mp sameFirst).trans ((sameName_iff _ _).mp same).symm
      rw [List.inj_on_of_nodup_map s.nodup first member sameFolded]

/-- The index of a snapshot has the position of each of its names, and nothing else. -/
structure IndexedFields.Of (x : IndexedFields) (s : Snapshot) : Prop where
  fields : x.fields = s.fields
  position : ∀ (key : String) (i : Nat), x.positions[key]? = some i ↔
    (foldedNames s.fields)[i]? = some key

namespace IndexedFields.Of
variable {x : IndexedFields} {s : Snapshot}

theorem add (h : x.Of s) (f : Field) : (x.add f).Of (s.add f) := by
  unfold IndexedFields.add
  cases found : x.positions[fold f.name]? with
  | some i =>
    have here := (h.position _ _).mp found
    have known : fold f.name ∈ foldedNames s.fields := List.mem_of_getElem? here
    constructor
    · rw [h.fields]
      exact (placeField_set s.nodup here).symm
    · intro key j
      rw [h.position, Snapshot.add, foldedNames_placeField, if_pos known]
  | none =>
    have new : fold f.name ∉ foldedNames s.fields := by
      intro known
      obtain ⟨i, here⟩ := List.mem_iff_getElem?.mp known
      rw [(h.position _ _).mpr here] at found
      cases found
    constructor
    · rw [h.fields]
      exact (placeField_new new).symm
    · intro key j
      have length : x.fields.length = (foldedNames s.fields).length := by
        rw [h.fields, foldedNames, List.length_map]
      rw [Snapshot.add, foldedNames_placeField, if_neg new, Std.HashMap.getElem?_insert, length]
      exact getElem?_new new (h.position key j)

theorem own (h : x.Of s) (owner : String) : (x.ownedBy owner).Of (s.ownedBy owner) := by
  constructor
  · rw [IndexedFields.ownedBy, h.fields, Snapshot.ownedBy]
  · intro key i
    simp [IndexedFields.ownedBy, Snapshot.ownedBy, h.position, foldedNames]

theorem apply (h : x.Of s) (c : FieldChange) : (x.apply c).Of (s.apply c) := by
  cases c with
  | add f => exact h.add f
  | own owner => exact h.own owner

theorem after (h : x.Of s) (changes : List FieldChange) :
    (x.after changes).Of (s.after changes) := by
  induction changes generalizing x s with
  | nil => exact h
  | cons c changes ih => exact ih (h.apply c)

theorem field (h : x.Of s) (name : String) : x.field? name = s.field? name := by
  refine Option.ext fun g => ?_
  rw [s.field_eq_some, IndexedFields.field?, Option.bind_eq_some_iff]
  simp only [h.position, h.fields, foldedNames, List.getElem?_map, Option.map_eq_some_iff,
    List.mem_iff_getElem?, sameName_iff]
  constructor
  · rintro ⟨i, ⟨f, atPosition, same⟩, found⟩
    obtain rfl : f = g := Option.some.inj (atPosition.symm.trans found)
    exact ⟨⟨i, found⟩, same⟩
  · rintro ⟨⟨i, found⟩, same⟩
    exact ⟨i, ⟨g, found, same⟩, found⟩

theorem hasField (h : x.Of s) (name : String) : x.hasField name = s.hasField name := by
  rw [Bool.eq_iff_iff, s.hasField_iff, IndexedFields.hasField,
    Std.HashMap.contains_eq_isSome_getElem?, Option.isSome_iff_exists, List.mem_iff_getElem?]
  simp only [h.position]

end IndexedFields.Of

/-- The field is the last one that was added under its name, with the owner it was given since. -/
def LastAdded (changes : List FieldChange) (g : Field) : Prop :=
  ∃ before f after, changes = before ++ .add f :: after ∧
    (∀ later, .add later ∈ after → sameName later.name f.name = false) ∧ g = f.after after

namespace LastAdded
variable {changes : List FieldChange} {f g : Field}

theorem not_nil : ¬ LastAdded [] g := by
  rintro ⟨before, f, after, split, _⟩
  simp at split

theorem concat {c : FieldChange} :
    LastAdded (changes ++ [c]) g ↔
      c = .add g ∨ ∃ h, LastAdded changes h ∧
        (∀ f, c = .add f → sameName f.name h.name = false) ∧ g = h.apply c := by
  constructor
  · rintro ⟨before, f, after, split, fresh, rfl⟩
    rcases List.eq_nil_or_concat' after with rfl | ⟨earlier, last, rfl⟩
    · obtain ⟨_, same⟩ := List.append_inj' split rfl
      exact Or.inl (List.singleton_inj.mp same)
    · rw [← List.cons_append, ← List.append_assoc] at split
      obtain ⟨rfl, same⟩ := List.append_inj' split rfl
      obtain rfl := List.singleton_inj.mp same
      refine Or.inr ⟨f.after earlier, ⟨before, f, earlier, rfl, ?_, rfl⟩, ?_, ?_⟩
      · exact fun later member => fresh later (List.mem_append_left _ member)
      · rintro later rfl
        rw [Field.name_after]
        exact fresh later (by simp)
      · rw [Field.after, List.foldl_append]
        rfl
  · rintro (rfl | ⟨h, ⟨before, f, after, rfl, fresh, rfl⟩, apart, rfl⟩)
    · exact ⟨changes, g, [], rfl, by simp, rfl⟩
    · refine ⟨before, f, after ++ [c], by simp, ?_, ?_⟩
      · intro later member
        rcases List.mem_append.mp member with earlier | last
        · exact fresh later earlier
        · have other := apart later (List.mem_singleton.mp last).symm
          rwa [Field.name_after] at other
      · rw [Field.after, Field.after, List.foldl_append]
        rfl

end LastAdded

namespace Snapshot
variable {s : Snapshot} {changes : List FieldChange} {f g : Field}

theorem mem_apply {c : FieldChange} :
    g ∈ (s.apply c).fields ↔
      c = .add g ∨ ∃ h ∈ s.fields,
        (∀ f, c = .add f → sameName f.name h.name = false) ∧ g = h.apply c := by
  cases c with
  | add f =>
    have apart : ∀ h : Field, (∀ k, FieldChange.add f = .add k → sameName k.name h.name = false) ↔
        fold h.name ≠ fold f.name := by
      intro h
      simp only [FieldChange.add.injEq, forall_eq', sameName_eq_false, ne_comm]
    rw [apply, add, mem_placeField, FieldChange.add.injEq, eq_comm]
    simp only [apart, Field.apply]
    refine or_congr_right ⟨fun ⟨member, other⟩ => ⟨g, member, other, rfl⟩, ?_⟩
    rintro ⟨h, member, other, rfl⟩
    exact ⟨member, other⟩
  | own owner =>
    rw [apply, ownedBy, List.mem_map]
    constructor
    · rintro ⟨h, member, rfl⟩
      exact Or.inr ⟨h, member, fun f isAdd => FieldChange.noConfusion isAdd, rfl⟩
    · rintro (isAdd | ⟨h, member, _, rfl⟩)
      · cases isAdd
      · exact ⟨h, member, rfl⟩

theorem after_append (s : Snapshot) (changes more : List FieldChange) :
    s.after (changes ++ more) = (s.after changes).after more := List.foldl_append

theorem after_concat (s : Snapshot) (changes : List FieldChange) (c : FieldChange) :
    s.after (changes ++ [c]) = (s.after changes).apply c := s.after_append changes [c]

theorem mem_after (empty : s.fields = []) : g ∈ (s.after changes).fields ↔ LastAdded changes g := by
  -- by the last change, since it is what decides whether an earlier field is still there
  induction changes using List.reverseRecOn generalizing g with
  | nil =>
    rw [after, List.foldl_nil, empty]
    exact iff_of_false List.not_mem_nil LastAdded.not_nil
  | append_singleton changes c ih =>
    rw [after_concat, mem_apply, LastAdded.concat]
    simp only [ih]

theorem names_apply (s : Snapshot) (c : FieldChange) :
    foldedNames s.fields <+: foldedNames (s.apply c).fields := by
  cases c with
  | add f =>
    rw [apply, add, foldedNames_placeField]
    split_ifs
    · exact List.prefix_rfl
    · exact List.prefix_append _ _
  | own owner =>
    have same : foldedNames (s.ownedBy owner).fields = foldedNames s.fields := by
      simp [ownedBy, foldedNames]
    exact ⟨[], by rw [List.append_nil, apply, same]⟩

theorem names_after (s : Snapshot) (changes : List FieldChange) :
    foldedNames s.fields <+: foldedNames (s.after changes).fields := by
  induction changes generalizing s with
  | nil => exact List.prefix_rfl
  | cons c changes ih => exact (s.names_apply c).trans (ih (s.apply c))

theorem first_place {before after : List FieldChange} (empty : s.fields = [])
    (first : ∀ e, .add e ∈ before → sameName e.name f.name = false) :
    (foldedNames (s.after (before ++ .add f :: after)).fields)[(s.after before).fields.length]? =
      some (fold f.name) := by
  have new : fold f.name ∉ foldedNames (s.after before).fields := by
    intro known
    obtain ⟨g, member, same⟩ := List.mem_map.mp known
    obtain ⟨earlier, e, later, rfl, _, rfl⟩ := (mem_after empty).mp member
    rw [Field.name_after] at same
    exact (sameName_eq_false _ _).mp (first e (by simp)) same
  have split : s.after (before ++ .add f :: after) = ((s.after before).add f).after after :=
    after_append ..
  have placed :
      foldedNames ((s.after before).add f).fields =
        foldedNames (s.after before).fields ++ [fold f.name] := by
    rw [add, foldedNames_placeField, if_neg new]
  obtain ⟨rest, names⟩ := ((s.after before).add f).names_after after
  rw [split, ← names, placed]
  simp [foldedNames]

end Snapshot

structure Grown (changes : List FieldChange) (s : Snapshot) (x : IndexedFields) : Prop where
  fields : x.fields = s.fields
  position : ∀ (key : String) (i : Nat), x.positions[key]? = some i ↔
    ∃ f, s.fields[i]? = some f ∧ fold f.name = key
  apart : ∀ (i j : Nat) (f g : Field), s.fields[i]? = some f → s.fields[j]? = some g →
    sameName f.name g.name = true → i = j
  found : ∀ name, x.field? name = s.field? name
  has : ∀ name, x.hasField name = s.hasField name ∧ s.hasField name = (s.field? name).isSome
  last : ∀ name g, s.field? name = some g ↔ LastAdded changes g ∧ sameName g.name name = true
  first : ∀ before f after, changes = before ++ .add f :: after →
    (∀ e, .add e ∈ before → sameName e.name f.name = false) →
      x.positions[fold f.name]? = some (IndexedFields.after {} before).fields.length

theorem IndexedFields.Of.blank (name label : String) (custom : Bool) :
    ({} : IndexedFields).Of (.blank name label custom) := by
  constructor
  · rfl
  · intro key i
    simp [Snapshot.blank, foldedNames]

theorem Snapshot.grown_after (name label : String) (custom : Bool) (changes : List FieldChange) :
    Grown changes ((blank name label custom).after changes) (IndexedFields.after {} changes) := by
  have empty : (blank name label custom).fields = [] := rfl
  have indexed := (IndexedFields.Of.blank name label custom).after changes
  have position :
      ∀ (key : String) (i : Nat), (IndexedFields.after {} changes).positions[key]? = some i ↔
      ∃ f, ((blank name label custom).after changes).fields[i]? = some f ∧ fold f.name = key := by
    intro key i
    rw [indexed.position, foldedNames, List.getElem?_map, Option.map_eq_some_iff]
  constructor
  case fields => exact indexed.fields
  case position => exact position
  case apart =>
    intro i j f g atFirst atSecond same
    have first := (position (fold f.name) i).mpr ⟨f, atFirst, rfl⟩
    have second := (position (fold f.name) j).mpr ⟨g, atSecond, ((sameName_iff _ _).mp same).symm⟩
    exact Option.some.inj (first.symm.trans second)
  case found => exact indexed.field
  case has =>
    intro sought
    exact ⟨indexed.hasField sought, hasField_eq_isSome ..⟩
  case last =>
    intro sought g
    rw [field_eq_some, mem_after empty]
  case first =>
    rintro before f after rfl fresh
    rw [indexed.position, ((IndexedFields.Of.blank name label custom).after before).fields]
    exact first_place empty fresh

end MigrationPlan
