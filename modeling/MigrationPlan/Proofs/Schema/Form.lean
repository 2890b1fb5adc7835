import MigrationPlan.Proofs.Document.Record
import MigrationPlan.Proofs.Schema.Index

/- The written form of snapshots. It tells everything but the owners of the fields; reading it,
   whatever the order of the members, adds the fields one by one, which makes the same list and the
   same index as before. -/
namespace MigrationPlan
open Text Document

def Field.unowned (f : Field) : Field := { f with owner := none }

def Snapshot.unowned (s : Snapshot) : Snapshot :=
  { s with
    fields := s.fields.map Field.unowned
    nodup := by
      have same : foldedNames (s.fields.map Field.unowned) = foldedNames s.fields := by
        simp [foldedNames, Field.unowned]
      rw [same]
      exact s.nodup }

theorem FieldType.read_tree (t : FieldType) : read t.tree = some t := by
  cases t <;> decide +kernel

namespace Field

theorem memberNames_distinct : Distinct memberNames := by decide +kernel

def members (f : Field) : List (String × Tree) :=
  [("name", .text f.name), ("label", .text f.label), ("type", f.type.tree),
    ("createable", .flag f.creatable), ("updateable", .flag f.updatable),
    ("calculated", .flag f.calculated), ("autoNumber", .flag f.autoNumber),
    ("custom", .flag f.custom), ("referenceTo", .texts f.referenceTo)]
    ++ Tree.memberOf? "relationshipName" (f.relationshipName.map .text) ++
      [("cascadeDelete", .flag f.cascadeDelete)]

theorem members_order (f : Field) :
    (f.members.map Prod.fst).Sublist (memberNames.map (·.name)) := by
  rw [members, List.map_append, List.map_append]
  exact ((List.Sublist.refl _).append (memberOf_sublist "relationshipName" _)).append
    (List.Sublist.refl _)

theorem members_settled (f : Field) : ∀ t ∈ f.members.map Prod.snd, t.Settled := by
  have optional :
      ∀ t ∈ (Tree.memberOf? "relationshipName" (f.relationshipName.map .text)).map Prod.snd,
        t.Settled := by
    cases f.relationshipName <;> simp [Tree.memberOf?, Tree.settled_text]
  simp only [members, List.map_append, List.forall_mem_append]
  refine ⟨⟨?_, optional⟩, ?_⟩ <;>
    simp [Tree.settled_text, Tree.settled_flag, Tree.settled_texts, FieldType.tree]

theorem read_reordered {f : Field} {d : Tree} (h : f.tree.Reordered d) :
    read d = some f.unowned := by
  obtain ⟨k, rfl, order⟩ := h.of_settled f.members_settled
  have given : (k.map Prod.fst).Subperm (memberNames.map (·.name)) :=
    (order.map Prod.fst).subperm.trans f.members_order.subperm
  have found := lookup_perm order (memberNames_distinct.nodup.sublist f.members_order)
  unfold read
  rw [fields_record, knownMembers_written memberNames_distinct given]
  simp [some_bind, required, orDefault_eq, found, members, List.lookup_cons, List.lookup_append,
    FieldType.read_tree, unowned, -Option.bind_eq_bind]

end Field

namespace Snapshot

theorem memberNames_distinct : Distinct memberNames := by decide +kernel

theorem after_heading (s : Snapshot) (changes : List FieldChange) :
    (s.after changes).name = s.name ∧ (s.after changes).label = s.label ∧
      (s.after changes).custom = s.custom := by
  induction changes generalizing s with
  | nil => exact ⟨rfl, rfl, rfl⟩
  | cons c changes ih =>
    obtain ⟨name, label, custom⟩ := ih (s.apply c)
    cases c <;> exact ⟨name, label, custom⟩

theorem addAll_eq_after (s : Snapshot) (l : List Field) : s.addAll l = s.after (l.map .add) := by
  rw [addAll, after, List.foldl_map]
  rfl

theorem fields_after_add {s : Snapshot} (empty : s.fields = []) {l : List Field}
    (nodup : (foldedNames l).Nodup) :
    (s.after (l.map .add)).fields = l := by
  induction l using List.reverseRecOn with
  | nil => exact empty
  | append_singleton l f ih =>
    rw [foldedNames, List.map_append, List.nodup_append'] at nodup
    obtain ⟨before, _, apart⟩ := nodup
    have new : fold f.name ∉ foldedNames l := fun known => apart known (by simp)
    have placed := placeField_new new
    rw [← ih before] at placed
    rw [List.map_append, List.map_singleton, after_concat, apply, fields_add, placed, ih before]

theorem after_fields (s : Snapshot) :
    (blank s.name s.label s.custom).after (s.fields.map .add) = s := by
  obtain ⟨name, label, custom⟩ := after_heading (blank s.name s.label s.custom) (s.fields.map .add)
  exact ext name label custom (fields_after_add rfl s.nodup)

def members (s : Snapshot) (fields : Tree) : List (String × Tree) :=
  [("name", .text s.name), ("label", .text s.label), ("custom", .flag s.custom), ("fields", fields)]

theorem reordered_members {s : Snapshot} {d : Tree} (h : s.tree.Reordered d) :
    ∃ items k, d = .record k ∧ k.Perm (s.members (.list items)) ∧
      List.Forall₂ Tree.Reordered (s.fields.map Field.tree) items := by
  obtain ⟨m, k, rfl, order, keys, values⟩ := h.of_record
  generalize whole : m.map Prod.snd = written at values
  rcases values with _ | ⟨name, _ | ⟨label, _ | ⟨custom, _ | ⟨fields, _ | _⟩⟩⟩⟩
  obtain rfl := Tree.settled_text _ _ name
  obtain rfl := Tree.settled_text _ _ label
  obtain rfl := Tree.settled_flag _ _ custom
  obtain ⟨items, rfl, each⟩ := fields.of_list
  have same : m = s.members (.list items) := List.zip_of_prod keys whole
  exact ⟨items, k, rfl, same ▸ order, each⟩

theorem read_reordered {s : Snapshot} {d : Tree} (h : s.tree.Reordered d) :
    read d = some s.unowned := by
  obtain ⟨items, k, rfl, order, each⟩ := reordered_members h
  have nodup : ((s.members (Tree.list items)).map Prod.fst).Nodup := memberNames_distinct.nodup
  have given : (k.map Prod.fst).Subperm (memberNames.map (·.name)) := (order.map Prod.fst).subperm
  have found := lookup_perm order nodup
  have fields : itemsOf Field.read (Tree.list items) = some s.unowned.fields := by
    refine itemsOf_list ?_
    rw [unowned, List.forall₂_map_right_iff]
    rw [List.forall₂_map_left_iff] at each
    exact (each.imp fun _ _ reordered => Field.read_reordered reordered).flip
  have added :
      read (Tree.record k) = some ((blank s.name s.label s.custom).addAll s.unowned.fields) := by
    unfold read
    rw [fields_record, knownMembers_written memberNames_distinct given]
    simp [required, orDefault_eq, found, members, List.lookup_cons, fields, blank]
  rw [added, addAll_eq_after]
  exact congrArg some s.unowned.after_fields

theorem field_unowned (s : Snapshot) (name : String) :
    s.unowned.field? name = (s.field? name).map Field.unowned := by
  rw [field?, field?, unowned, List.find?_map]
  rfl

theorem hasField_unowned (s : Snapshot) (name : String) :
    s.unowned.hasField name = s.hasField name := by
  rw [hasField, hasField, unowned, List.any_map]
  rfl

theorem of_read {δ : Type} [Document δ] {d : δ} {s : Snapshot} (ok : read d = some s) :
    ∃ members fields, fields? memberNames d = some members ∧
      orDefault members "fields" [] (itemsOf Field.read) = some fields ∧
        s = (blank s.name s.label s.custom).after (fields.map .add) := by
  simp only [read, Option.bind_eq_bind, Option.bind_eq_some_iff, Option.pure_def,
    Option.some.injEq] at ok
  obtain ⟨members, known, name, _, label, _, custom, _, fields, listed, rfl⟩ := ok
  refine ⟨members, fields, known, listed, ?_⟩
  obtain ⟨keptName, keptLabel, keptCustom⟩ :=
    after_heading (blank name label custom) (fields.map .add)
  rw [← blank, addAll_eq_after, keptName, keptLabel, keptCustom]
  rfl

theorem grown_fields (s : Snapshot) :
    Grown (s.fields.map .add) s (IndexedFields.after {} (s.fields.map .add)) := by
  have grown := grown_after s.name s.label s.custom (s.fields.map .add)
  rwa [after_fields] at grown

theorem positions_unowned {changes : List FieldChange} {s : Snapshot} {x : IndexedFields}
    (h : Grown changes s x) (key : String) :
    (IndexedFields.after {} (s.unowned.fields.map .add)).positions[key]? = x.positions[key]? := by
  refine Option.ext fun i => ?_
  rw [s.unowned.grown_fields.position, h.position, unowned]
  simp only [List.getElem?_map, Option.map_eq_some_iff]
  constructor
  · rintro ⟨_, ⟨f, atPosition, rfl⟩, same⟩
    exact ⟨f, atPosition, same⟩
  · rintro ⟨f, atPosition, same⟩
    exact ⟨f.unowned, ⟨f, atPosition, rfl⟩, same⟩

/-- Any changes to a blank snapshot, or to one that a document describes, leave its fields and its
    index in step, and each name with the field that was added last. What is written of the
    snapshot, in whatever order the members of records stand, is read as the same snapshot without
    owners, and its index as the same index. -/
theorem indexed_and_written :
    (∀ (name label : String) (custom : Bool) (changes : List FieldChange),
      Grown changes ((blank name label custom).after changes) (IndexedFields.after {} changes)) ∧
      (∀ {δ : Type} [Document δ] (d : δ) (s : Snapshot), read d = some s →
        ∃ members fields, fields? memberNames d = some members ∧
          orDefault members "fields" [] (itemsOf Field.read) = some fields ∧
            ∀ changes, Grown (fields.map .add ++ changes) (s.after changes)
              (IndexedFields.after {} (fields.map .add ++ changes))) ∧
      ∀ (changes : List FieldChange) (s : Snapshot) (x : IndexedFields), Grown changes s x →
        ∀ d : Tree, s.tree.Reordered d →
          ∃ t : Snapshot, read d = some t ∧ t.name = s.name ∧ t.label = s.label ∧
            t.custom = s.custom ∧
            t.fields = s.fields.map Field.unowned ∧
            (∀ name, t.field? name = (s.field? name).map Field.unowned ∧
              t.hasField name = s.hasField name) ∧
              Grown (t.fields.map .add) t (IndexedFields.after {} (t.fields.map .add)) ∧
                ∀ key : String, (IndexedFields.after {} (t.fields.map .add)).positions[key]? =
                  x.positions[key]? := by
  refine ⟨grown_after, ?_, ?_⟩
  · intro δ _ d s ok
    obtain ⟨members, fields, known, listed, made⟩ := of_read ok
    refine ⟨members, fields, known, listed, fun changes => ?_⟩
    have whole :
        s.after changes = (blank s.name s.label s.custom).after (fields.map .add ++ changes) := by
      rw [after_append, ← made]
    rw [whole]
    exact grown_after ..
  · intro changes s x grown d reordered
    exact ⟨s.unowned, read_reordered reordered, rfl, rfl, rfl, rfl,
      fun name => ⟨s.field_unowned name, s.hasField_unowned name⟩, s.unowned.grown_fields,
        positions_unowned grown⟩

def retyped : List FieldChange :=
  [.add (.ofType "Id" .id), .add (.ofType "LASTNAME" .string), .own "Contact",
    .add (.ofType "LastName" .textarea)]

theorem indexed_and_written_contacts :
    let s := (ofName "Contact").after retyped
    ∃ t : Snapshot,
      read (Tree.record (s.members (.list (s.fields.map Field.tree))).reverse) = some t ∧
      (IndexedFields.after {} (t.fields.map .add)).positions["lastname"]? = some 1 ∧
        t.field? "lastName" = some (.ofType "LastName" .textarea) ∧
          ∃ fields : List Field, Grown (fields.map .add ++ [.own "Contact"]) (t.ownedBy "Contact")
            (IndexedFields.after {} (fields.map .add ++ [.own "Contact"])) := by
  intro s
  obtain ⟨built, decoded, written⟩ := indexed_and_written
  have reversed :
      s.tree.Reordered (.record (s.members (.list (s.fields.map Field.tree))).reverse) :=
    .record rfl (Tree.forall₂_same _) (List.reverse_perm _)
  obtain ⟨t, back, _, _, _, fields, lookups, grown, _⟩ :=
    written retyped s _ (built "Contact" "Contact" false retyped) _ reversed
  obtain ⟨_, listed, _, _, more⟩ := decoded _ t back
  have second : t.fields[1]? = some (.ofType "LastName" .textarea) := by
    rw [fields]
    decide +kernel
  refine ⟨t, back, ?_, ?_, listed, more [.own "Contact"]⟩
  · exact (grown.position "lastname" 1).mpr ⟨_, second, by decide +kernel⟩
  · rw [(lookups "lastName").1]
    decide +kernel

end Snapshot

end MigrationPlan
