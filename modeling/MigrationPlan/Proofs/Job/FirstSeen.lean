import Mathlib.Data.List.Induction
import MigrationPlan.Proofs.Selection.SelectList

/- Lists without repetitions in the order of first occurrence. They are said here by what each
   further element does, and `eraseDupsBy` makes them. -/
namespace MigrationPlan

/-- The second list has of each element of the first the occurrence that none like it precedes. -/
inductive FirstSeen {α : Type} (same : α → α → Bool) : List α → List α → Prop where
  | nil : FirstSeen same [] []
  | new {l m : List α} {a : α} (before : FirstSeen same l m) (fresh : ∀ b ∈ l, same a b = false) :
      FirstSeen same (l ++ [a]) (m ++ [a])
  | seen {l m : List α} {a : α} (before : FirstSeen same l m) (again : ∃ b ∈ l, same a b = true) :
      FirstSeen same (l ++ [a]) m

namespace FirstSeen
variable {α β : Type} {same : α → α → Bool}

theorem sublist {l m : List α} (h : FirstSeen same l m) : m.Sublist l := by
  induction h with
  | nil => exact List.nil_sublist _
  | new before fresh ih => exact ih.append_right _
  | seen before again ih => exact ih.trans (List.sublist_append_left _ _)

theorem pairwise {l m : List α} (h : FirstSeen same l m) :
    m.Pairwise fun a b => same b a = false := by
  induction h with
  | nil => exact List.Pairwise.nil
  | new before fresh ih =>
    rw [List.pairwise_append]
    refine ⟨ih, List.pairwise_singleton _ _, ?_⟩
    intro b inFirst a isLast
    rw [List.mem_singleton.mp isLast]
    exact fresh b (before.sublist.mem inFirst)
  | seen before again ih => exact ih

theorem nodup {l m : List β} [BEq β] [LawfulBEq β] (h : FirstSeen (· == ·) l m) : m.Nodup := by
  refine h.pairwise.imp fun {a b} apart => ?_
  exact (beq_eq_false_iff_ne.mp apart).symm

theorem nil_iff {l m : List α} (h : FirstSeen same l m) : m = [] ↔ l = [] := by
  induction h with
  | nil => simp
  | new before fresh ih => simp
  | seen before again ih =>
    obtain ⟨b, member, _⟩ := again
    simp [ih, List.ne_nil_of_mem member]

theorem unique {l m m' : List α} (h : FirstSeen same l m) (h' : FirstSeen same l m') : m = m' := by
  induction h generalizing m' with
  | nil =>
    generalize whole : ([] : List α) = l at h'
    cases h' with
    | nil => rfl
    | new before fresh => simp at whole
    | seen before again => simp at whole
  | @new l m a before fresh ih =>
    generalize whole : l ++ [a] = l' at h'
    cases h' with
    | nil => simp at whole
    | new before' fresh' =>
      obtain ⟨rfl, last⟩ := List.append_inj' whole rfl
      rw [ih before', List.singleton_inj.mp last]
    | seen before' again =>
      obtain ⟨rfl, last⟩ := List.append_inj' whole rfl
      obtain ⟨b, member, like⟩ := again
      rw [← List.singleton_inj.mp last, fresh b member] at like
      cases like
  | @seen l m a before again ih =>
    generalize whole : l ++ [a] = l' at h'
    cases h' with
    | nil => simp at whole
    | new before' fresh =>
      obtain ⟨rfl, last⟩ := List.append_inj' whole rfl
      obtain ⟨b, member, like⟩ := again
      rw [List.singleton_inj.mp last, fresh b member] at like
      cases like
    | seen before' again' =>
      obtain ⟨rfl, _⟩ := List.append_inj' whole rfl
      exact ih before'

theorem congr {same' : α → α → Bool} {l m : List α} (h : FirstSeen same l m)
    (agree : ∀ a ∈ l, ∀ b ∈ l, same a b = same' a b) : FirstSeen same' l m := by
  induction h with
  | nil => exact .nil
  | new before fresh ih =>
    refine .new (ih fun a inFirst b inSecond =>
      agree a (by simp [inFirst]) b (by simp [inSecond])) fun b member => ?_
    rw [← agree _ (by simp) b (by simp [member]), fresh b member]
  | seen before again ih =>
    obtain ⟨b, member, like⟩ := again
    refine .seen (ih fun a inFirst b inSecond =>
      agree a (by simp [inFirst]) b (by simp [inSecond])) ⟨b, member, ?_⟩
    rw [← agree _ (by simp) b (by simp [member]), like]

theorem filterMap {l m : List α} [BEq β] [LawfulBEq β] {g : α → Option β} (h : FirstSeen same l m)
    (alike : ∀ a b, same a b = true → g a = g b)
    (apart : ∀ a b e, g a = some e → g b = some e → same a b = true) :
    FirstSeen (· == ·) (l.filterMap g) (m.filterMap g) := by
  induction h with
  | nil => exact .nil
  | @new l m a before fresh ih =>
    cases value : g a with
    | none => simpa [value] using ih
    | some e =>
      have last : [a].filterMap g = [e] := by simp [value]
      rw [List.filterMap_append, List.filterMap_append, last]
      refine .new ih fun d member => ?_
      obtain ⟨b, inFirst, found⟩ := List.mem_filterMap.mp member
      rw [beq_eq_false_iff_ne]
      intro eq
      subst eq
      have like := apart a b e value found
      rw [fresh b inFirst] at like
      cases like
  | @seen l m a before again ih =>
    cases value : g a with
    | none => simpa [value] using ih
    | some e =>
      have last : [a].filterMap g = [e] := by simp [value]
      obtain ⟨b, member, like⟩ := again
      rw [List.filterMap_append, last]
      refine .seen ih ⟨e, List.mem_filterMap.mpr ⟨b, member, ?_⟩, by simp⟩
      rw [← alike a b like, value]

theorem filter {l m : List β} [BEq β] [LawfulBEq β] (p : β → Bool) (h : FirstSeen (· == ·) l m) :
    FirstSeen (· == ·) (l.filter p) (m.filter p) := by
  have kept := h.filterMap (g := Option.guard p) (fun a b like => by rw [beq_iff_eq.mp like]) (by
    intro a b e first second
    rw [(Option.guard_eq_some_iff.mp first).1, (Option.guard_eq_some_iff.mp second).1]
    exact beq_self_eq_true e)
  simpa [List.filterMap_eq_filter] using kept

section Erase
variable (trans : ∀ a b c, same a b = true → same b c = true → same a c = true)
include trans

theorem any_kept {l m : List α} (h : FirstSeen same l m) (a : α) :
    m.any (same a) = l.any (same a) := by
  induction h with
  | nil => rfl
  | new before fresh ih => rw [List.any_append, List.any_append, ih]
  | @seen l m b before again ih =>
    rw [List.any_append, ih]
    cases like : same a b with
    | false => simp [like]
    | true =>
      obtain ⟨d, member, likeB⟩ := again
      have seenA : l.any (same a) = true := List.any_eq_true.mpr ⟨d, member, trans a b d like likeB⟩
      simp [seenA]

omit trans in
theorem eraseDupsBy_concat (l : List α) (a : α) :
    (l ++ [a]).eraseDupsBy same =
      if (l.eraseDupsBy same).any (same a) then l.eraseDupsBy same
      else l.eraseDupsBy same ++ [a] := by
  have loop : ∀ (l kept : List α), List.eraseDupsBy.loop same (l ++ [a]) kept =
      if (List.eraseDupsBy.loop same l kept).any (same a) then List.eraseDupsBy.loop same l kept
      else List.eraseDupsBy.loop same l kept ++ [a] := by
    intro l
    induction l with
    | nil =>
      intro kept
      simp only [List.nil_append, List.eraseDupsBy.loop, List.any_reverse]
      cases kept.any (same a) <;> simp
    | cons b l ih =>
      intro kept
      cases again : kept.any (same b) with
      | true => simpa only [List.cons_append, List.eraseDupsBy.loop, again] using ih kept
      | false => simpa only [List.cons_append, List.eraseDupsBy.loop, again] using ih (b :: kept)
  exact loop l []

theorem of_eraseDupsBy (l : List α) : FirstSeen same l (l.eraseDupsBy same) := by
  induction l using List.reverseRecOn with
  | nil => exact .nil
  | append_singleton l a ih =>
    have kept := any_kept trans ih a
    rw [eraseDupsBy_concat, kept]
    cases seenA : l.any (same a) with
    | true => exact .seen ih (List.any_eq_true.mp seenA)
    | false =>
      refine .new ih fun b member => ?_
      simpa using List.any_eq_false.mp seenA b member

end Erase

theorem of_eraseDups [BEq β] [LawfulBEq β] (l : List β) : FirstSeen (· == ·) l l.eraseDups :=
  of_eraseDupsBy (fun a b c ab bc => by rw [beq_iff_eq.mp ab]; exact bc) l

theorem of_sameName (l : List String) :
    FirstSeen Text.sameName l (l.eraseDupsBy Text.sameName) := by
  refine of_eraseDupsBy (fun a b c ab bc => ?_) l
  rw [Text.sameName_iff] at ab bc ⊢
  exact ab.trans bc

end FirstSeen

namespace SelectList
open Text

theorem firstSeen_distinct (l : List Entry) :
    FirstSeen (fun a b => sameName a.key b.key) l (distinct l) := by
  refine FirstSeen.of_eraseDupsBy (fun a b c ab bc => ?_) l
  rw [sameName_iff] at ab bc ⊢
  exact ab.trans bc

theorem distinct_concat (l : List Entry) (e : Entry) :
    distinct (l ++ [e]) = insert (distinct l) e := by
  have selected :
      ((distinct l).any fun d => sameName e.key d.key) = selects (distinct l) e.key := by
    simp only [selects, Entry.isNamed, sameName, Bool.beq_comm]
  rw [distinct, FirstSeen.eraseDupsBy_concat, ← distinct, selected]
  rfl

end SelectList

end MigrationPlan
