import Mathlib.Data.List.Perm.Subperm
import MigrationPlan.Document

/- Trees as documents. A record that was written under the names of its fields is read back member
   by member, in whatever order its members stand. -/
namespace MigrationPlan

namespace Document
variable {δ α β : Type}

structure Distinct (names : List FieldName) : Prop where
  nodup : (names.map (·.name)).Nodup
  own : ∀ f ∈ names, names.find? (·.isGivenAs f.name) = some f

instance (names : List FieldName) : Decidable (Distinct names) :=
  decidable_of_iff ((names.map (·.name)).Nodup ∧
    ∀ f ∈ names, names.find? (·.isGivenAs f.name) = some f)
    ⟨fun ⟨nodup, own⟩ => ⟨nodup, own⟩, fun ⟨nodup, own⟩ => ⟨nodup, own⟩⟩

theorem knownMembers_written {names : List FieldName} {members : List (String × δ)}
    (distinct : Distinct names) (given : (members.map Prod.fst).Subperm (names.map (·.name))) :
    knownMembers names members = some members := by
  have known :
      ∀ m ∈ members, (names.find? (·.isGivenAs m.1)).map (fun f => (f.name, m.2)) = some m := by
    intro m member
    obtain ⟨f, isName, same⟩ := List.mem_map.mp (given.subset (List.mem_map_of_mem member))
    rw [← same, distinct.own f isName, Option.map_some, same]
  have kept :
      (members.filterMap fun m => (names.find? (·.isGivenAs m.1)).map fun f => (f.name, m.2)) =
        members := by
    rw [List.filterMap_congr known, List.filterMap_some]
  have once : (members.map Prod.fst).Nodup := by
    obtain ⟨l, order, sublist⟩ := given
    exact order.nodup_iff.mp (distinct.nodup.sublist sublist)
  rw [knownMembers, kept, if_pos once]

theorem lookup_eq_some {members : List (String × δ)} (nodup : (members.map Prod.fst).Nodup)
    {key : String} {value : δ} :
    members.lookup key = some value ↔ (key, value) ∈ members := by
  induction members with
  | nil => simp
  | cons m members ih =>
    obtain ⟨name, first⟩ := m
    rw [List.map_cons, List.nodup_cons] at nodup
    rw [List.lookup_cons, List.mem_cons, Prod.mk.injEq, ← ih nodup.2]
    by_cases here : key = name
    · subst here
      have absent : members.lookup key ≠ some value := by
        rw [Ne, ih nodup.2]
        exact fun later => nodup.1 (List.mem_map.mpr ⟨_, later, rfl⟩)
      simp [absent, eq_comm]
    · have other : (key == name) = false := beq_eq_false_iff_ne.mpr here
      simp [other, here]

theorem lookup_perm {k m : List (String × δ)} (order : k.Perm m) (nodup : (m.map Prod.fst).Nodup)
    (key : String) :
    k.lookup key = m.lookup key := by
  refine Option.ext fun value => ?_
  rw [lookup_eq_some nodup, lookup_eq_some ((order.map _).nodup_iff.mpr nodup), order.mem_iff]

/-- For readers of many fields, where `simp` is to stay off `Option.bind` and its congruence. -/
theorem some_bind (a : α) (next : α → Option β) : (some a >>= next) = next a := rfl

theorem orDefault_eq [Document δ] (members : List (String × δ)) (name : String) (absent : α)
    (read : δ → Option α) :
    orDefault members name absent read = (members.lookup name).elim (some absent) read := by
  unfold orDefault
  cases members.lookup name <;> rfl

section Tree

@[simp] theorem fields_record (names : List FieldName) (members : List (String × Tree)) :
    fields? names (Tree.record members) = knownMembers names members := rfl

@[simp] theorem items_list (l : List Tree) : items? (Tree.list l) = some l := rfl

@[simp] theorem text_text (s : String) : text? (Tree.text s) = some s := rfl

@[simp] theorem flag_flag (b : Bool) : flag? (Tree.flag b) = some b := rfl

@[simp] theorem choice_text (s : String) : choice? (Tree.text s) = some s := rfl

@[simp] theorem maybeText_text (s : String) : maybeText (Tree.text s) = some (some s) := rfl

theorem itemsOf_list {read : Tree → Option α} {l : List Tree} {m : List α}
    (each : List.Forall₂ (fun t a => read t = some a) l m) : itemsOf read (.list l) = some m := by
  rw [itemsOf, items_list, Option.bind_some]
  induction each with
  | nil => rfl
  | cons first rest ih => simp [List.mapM_cons, first, ih]

theorem itemsOf_map {read : Tree → Option β} {write : α → Tree} {f : α → β}
    (back : ∀ a, read (write a) = some (f a))
    (l : List α) : itemsOf read (.list (l.map write)) = some (l.map f) := by
  refine itemsOf_list ?_
  rw [List.forall₂_map_left_iff, List.forall₂_map_right_iff, List.forall₂_same]
  exact fun a _ => back a

@[simp] theorem texts_texts (l : List String) : texts? (Tree.texts l) = some l := by
  rw [texts?, Tree.texts, itemsOf_map text_text, List.map_id']

@[simp] theorem lookup_memberOf (name key : String) (value : Option Tree) :
    (Tree.memberOf? name value).lookup key = if key == name then value else none := by
  cases value with
  | none => simp [Tree.memberOf?]
  | some value =>
    rw [Tree.memberOf?, List.lookup_cons]
    cases key == name <;> rfl

theorem memberOf_sublist (name : String) (value : Option Tree) :
    ((Tree.memberOf? name value).map Prod.fst).Sublist [name] := by
  cases value <;> simp [Tree.memberOf?]

@[simp] theorem maybeText_memberOf (value : Option String) :
    value.elim (some none) (maybeText ∘ Tree.text) = some value := by
  cases value <;> rfl

end Tree

end Document

namespace Tree

/-- The same tree, but the members of its records may stand in another order. -/
inductive Reordered : Tree → Tree → Prop where
  | same (t : Tree) : Reordered t t
  | list {l m : List Tree} (items : List.Forall₂ Reordered l m) : Reordered (.list l) (.list m)
  | record {l m k : List (String × Tree)} (keys : m.map Prod.fst = l.map Prod.fst)
      (values : List.Forall₂ Reordered (l.map Prod.snd) (m.map Prod.snd)) (order : k.Perm m) :
      Reordered (.record l) (.record k)

def Settled (t : Tree) : Prop := ∀ d, t.Reordered d → d = t

theorem forall₂_same (l : List Tree) : List.Forall₂ Reordered l l :=
  List.forall₂_same.mpr fun t _ => .same t

theorem Reordered.of_list {l : List Tree} {d : Tree} (h : Reordered (.list l) d) :
    ∃ m, d = .list m ∧ List.Forall₂ Reordered l m := by
  cases h with
  | same => exact ⟨l, rfl, forall₂_same l⟩
  | list items => exact ⟨_, rfl, items⟩

theorem Reordered.of_record {l : List (String × Tree)} {d : Tree} (h : Reordered (.record l) d) :
    ∃ m k, d = .record k ∧ k.Perm m ∧ m.map Prod.fst = l.map Prod.fst ∧
      List.Forall₂ Reordered (l.map Prod.snd) (m.map Prod.snd) := by
  cases h with
  | same => exact ⟨l, l, rfl, .refl l, rfl, forall₂_same _⟩
  | record keys values order => exact ⟨_, _, rfl, order, keys, values⟩

theorem settled_text (s : String) : Settled (.text s) := by
  intro d h
  cases h
  rfl

theorem settled_flag (b : Bool) : Settled (.flag b) := by
  intro d h
  cases h
  rfl

theorem eq_of_settled {l m : List Tree} (settled : ∀ t ∈ l, t.Settled)
    (h : List.Forall₂ Reordered l m) : m = l := by
  induction h with
  | nil => rfl
  | cons first rest ih =>
    rw [settled _ List.mem_cons_self _ first, ih fun t member =>
      settled t (List.mem_cons_of_mem _ member)]

theorem settled_texts (l : List String) : Settled (.texts l) := by
  intro d h
  obtain ⟨m, rfl, items⟩ := h.of_list
  have each : ∀ t ∈ l.map text, t.Settled := by
    intro t member
    obtain ⟨s, _, rfl⟩ := List.mem_map.mp member
    exact settled_text s
  rw [texts, eq_of_settled each items]

theorem Reordered.of_settled {l : List (String × Tree)} {d : Tree}
    (settled : ∀ t ∈ l.map Prod.snd, t.Settled)
    (h : Reordered (.record l) d) : ∃ k, d = .record k ∧ k.Perm l := by
  obtain ⟨m, k, rfl, order, keys, values⟩ := h.of_record
  have same : m = l := by
    rw [List.zip_of_prod keys (eq_of_settled settled values), ← List.zip_of_prod rfl rfl]
  exact ⟨k, rfl, same ▸ order⟩

end Tree

end MigrationPlan
