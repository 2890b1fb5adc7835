import MigrationPlan.Proofs.Job.FirstSeen
import MigrationPlan.Proofs.Selection.Expansion

/- Expansion of any select list, with its repetitions and excluded entries. Fields may join one
   after the other, each looked up in the list as it then is: their names differ, so that those join
   which the list before does not select. What joins is neither excluded nor repeated, and a second
   expansion finds nothing more to do. -/
namespace MigrationPlan
open Text SelectList

structure Joins (l : List Entry) (pattern : Option Pattern) (counterpart : Option Snapshot)
    (rules : ExpansionRules) (f : Field) : Prop where
  matched : ∃ p, pattern = some p ∧ p.isMatch f = true
  unselected : ∀ e ∈ l, sameName e.key f.name = false
  notExcluded : rules.excluded.contains f.name = false
  notDenied : ∀ parent, f.referenceTo.head? = some parent →
    rules.deniedParents.contains parent = false
  inCounterpart : ∀ t, counterpart = some t → t.hasField f.name = true

namespace SelectList

theorem distinct_append {l m : List Entry} (nodup : (names m).Nodup)
    (fresh : ∀ e ∈ m, fold e.key ∉ names l) :
    distinct (l ++ m) = distinct l ++ m := by
  induction m using List.reverseRecOn with
  | nil => simp
  | append_singleton m e ih =>
    rw [names_append, List.nodup_append] at nodup
    obtain ⟨before, _, apart⟩ := nodup
    have kept := ih before fun d member => fresh d (List.mem_append_left _ member)
    have new : selects (distinct l ++ m) e.key = false := by
      rw [Bool.eq_false_iff, Ne, selects_iff, names_append, List.mem_append,
        mem_names_distinct, not_or]
      refine ⟨fresh e (by simp), fun again => ?_⟩
      exact apart _ again _ (List.mem_singleton.mpr rfl) rfl
    rw [← List.append_assoc, distinct_concat, kept, SelectList.insert, new]
    simp

end SelectList

variable (pattern : Option Pattern) (counterpart : Option Snapshot) (rules : ExpansionRules)

/-- One more field is looked at. It joins at the end and is counted, unless its name is selected by
    then. -/
def joinNext (joined : List Entry × Nat) (f : Field) : List Entry × Nat :=
  if pattern.any (·.isMatch f) && !selects joined.1 f.name && rules.admits counterpart f then
    (joined.1 ++ [.plain f.name], joined.2 + 1)
  else joined

def Query.expandInTurn (q : Query) (s : Snapshot) : Query × Nat :=
  let joined := s.fields.foldl (joinNext pattern counterpart rules) (q.entries, 0)
  ({ q with entries := distinct (exclude rules.excluded rules.mandatory joined.1) }, joined.2)

theorem foldl_joinNext {fields : List Field} (nodup : (foldedNames fields).Nodup)
    (l : List Entry) (n : Nat) :
    let joining := fields.filter fun f =>
      pattern.any (·.isMatch f) && !selects l f.name && rules.admits counterpart f
    fields.foldl (joinNext pattern counterpart rules) (l, n) =
      (l ++ plainEntries joining, n + joining.length) := by
  induction fields generalizing l n with
  | nil => simp [plainEntries]
  | cons f fields ih =>
    obtain ⟨fresh, rest⟩ := List.nodup_cons.mp nodup
    dsimp only at ih ⊢
    rw [List.foldl_cons, List.filter_cons]
    split
    next joins =>
      have next : joinNext pattern counterpart rules (l, n) f = (l ++ [.plain f.name], n + 1) :=
        if_pos joins
      -- the later fields bear other names, so that none of them is selected by the field that
      -- joined
      have same : (fields.filter fun g =>
            pattern.any (·.isMatch g) && !selects (l ++ [.plain f.name]) g.name &&
              rules.admits counterpart g) =
          fields.filter fun g =>
            pattern.any (·.isMatch g) && !selects l g.name && rules.admits counterpart g := by
        apply List.filter_congr
        intro g member
        have other : sameName f.name g.name = false := by
          rw [sameName_eq_false]
          exact fun eq => fresh (List.mem_map.mpr ⟨g, member, eq.symm⟩)
        simp [selects, Entry.isNamed, Entry.key, other]
      rw [next, ih rest, same]
      simp [plainEntries, Nat.add_assoc, Nat.add_comm 1]
    next stays =>
      have next : joinNext pattern counterpart rules (l, n) f = (l, n) := if_neg stays
      rw [next, ih rest]

theorem expandInTurn_eq (q : Query) (s : Snapshot) :
    q.expandInTurn pattern counterpart rules s =
      ({ q with entries := expand q.entries pattern s counterpart rules },
        (joiningFields q.entries pattern s counterpart rules).length) := by
  unfold Query.expandInTurn
  rw [foldl_joinNext pattern counterpart rules s.nodup, Nat.zero_add]
  rfl

section Expand
variable (l : List Entry) (s : Snapshot)

theorem mem_joiningFields_iff {f : Field} :
    f ∈ joiningFields l pattern s counterpart rules ↔
      f ∈ s.fields ∧ Joins l pattern counterpart rules f := by
  rw [mem_joiningFields]
  refine and_congr_right fun _ => ?_
  simp only [ExpansionRules.admits, Field.referenceTarget?, Bool.and_eq_true, Bool.not_eq_true',
    Option.any_eq_true, Option.any_eq_false, Option.all_eq_true, mem_names, not_exists, not_and]
  constructor
  · rintro ⟨matched, fresh, ⟨notExcluded, notDenied⟩, inCounterpart⟩
    exact ⟨matched, fun e member => (sameName_eq_false _ _).mpr (fresh e member), notExcluded,
      notDenied, inCounterpart⟩
  · intro joins
    refine ⟨joins.matched, fun e member => ?_, ⟨joins.notExcluded, joins.notDenied⟩,
      joins.inCounterpart⟩
    exact (sameName_eq_false _ _).mp (joins.unselected e member)

/-- Cleaning up reaches only the entries of the list before. -/
theorem expand_eq_kept :
    expand l pattern s counterpart rules =
      distinct (exclude rules.excluded rules.mandatory l)
        ++ plainEntries (joiningFields l pattern s counterpart rules) := by
  have spared :
      exclude rules.excluded rules.mandatory
        (plainEntries (joiningFields l pattern s counterpart rules)) =
      plainEntries (joiningFields l pattern s counterpart rules) := by
    apply exclude_of_all
    intro e member excluded
    rw [joining_notExcluded pattern s counterpart rules e member] at excluded
    cases excluded
  have whole : expand l pattern s counterpart rules =
      distinct (exclude rules.excluded rules.mandatory
        (l ++ plainEntries (joiningFields l pattern s counterpart rules))) :=
    rfl
  have cut : ∀ m, exclude rules.excluded rules.mandatory (l ++ m) =
      exclude rules.excluded rules.mandatory l ++ exclude rules.excluded rules.mandatory m :=
    fun m => List.filter_append ..
  rw [whole, cut, spared, distinct_append (names_joining_nodup pattern s counterpart rules)]
  intro e member again
  exact joining_fresh pattern s counterpart rules e member ((List.filter_sublist.map _).mem again)

theorem joining_expanded :
    joiningFields (expand l pattern s counterpart rules) pattern s counterpart rules = [] := by
  rw [List.eq_nil_iff_forall_not_mem]
  intro f joins
  obtain ⟨member, matched, fresh, admitted⟩ := mem_joiningFields.mp joins
  rw [expand_eq_kept, names_append, List.mem_append, not_or, mem_names_distinct] at fresh
  have notExcluded : rules.excluded.contains f.name = false := by
    simp only [ExpansionRules.admits, Bool.and_eq_true, Bool.not_eq_true'] at admitted
    exact admitted.1.1
  by_cases old : fold f.name ∈ names l
  · -- an entry of that name is no more excluded than the field is
    obtain ⟨e, inList, key⟩ := mem_names.mp old
    refine fresh.1 (mem_names.mpr ⟨e, mem_exclude.mpr ⟨inList, fun excluded => ?_⟩, key⟩)
    rw [rules.excluded.contains_congr key, notExcluded] at excluded
    cases excluded
  · have joined : f ∈ joiningFields l pattern s counterpart rules :=
      mem_joiningFields.mpr ⟨member, matched, old, admitted⟩
    exact fresh.2 (key_mem_names (mem_plainEntries.mpr ⟨f, joined, rfl⟩))

theorem expand_expanded :
    expand (expand l pattern s counterpart rules) pattern s counterpart rules =
      expand l pattern s counterpart rules := by
  have nodup : (names (expand l pattern s counterpart rules)).Nodup := names_distinct_nodup _
  have spared : ∀ e ∈ expand l pattern s counterpart rules,
      rules.excluded.contains e.key = true → rules.mandatory.contains e.key = true :=
    fun e member => (mem_exclude.mp ((distinct_sublist _).mem member)).2
  rw [expand_eq_append pattern s counterpart rules nodup spared, joining_expanded]
  exact List.append_nil _

/-- Behind the first of each name of the entries that stay stand exactly the fields that join, as
    many as are counted; nothing else of the query changes, and expanding once more changes and
    counts nothing. -/
theorem expansion_exact (q : Query) :
    let joining := joiningFields q.entries pattern s counterpart rules
    let after := expand q.entries pattern s counterpart rules
    let inTurn := q.expandInTurn pattern counterpart rules s
    (joining.Sublist s.fields ∧ ∀ f, f ∈ joining ↔
      f ∈ s.fields ∧ Joins q.entries pattern counterpart rules f) ∧
      (∃ kept, after = kept ++ joining.map (fun f => .plain f.name) ∧
        FirstSeen (fun d e => sameName d.key e.key)
          (q.entries.filter fun e =>
            !rules.excluded.contains e.key || rules.mandatory.contains e.key) kept) ∧
      inTurn = ({ q with entries := after }, joining.length) ∧
      expand after pattern s counterpart rules = after ∧
        joiningFields after pattern s counterpart rules = [] ∧
      inTurn.1.expandInTurn pattern counterpart rules s = (inTurn.1, 0) := by
  intro joining after inTurn
  have turn : inTurn = ({ q with entries := after }, joining.length) :=
    expandInTurn_eq pattern counterpart rules q s
  have again : expand after pattern s counterpart rules = after :=
    expand_expanded pattern counterpart rules q.entries s
  have none : joiningFields after pattern s counterpart rules = [] :=
    joining_expanded pattern counterpart rules q.entries s
  refine ⟨⟨List.filter_sublist,
    fun f => mem_joiningFields_iff pattern counterpart rules q.entries s⟩, ?_, turn, again,
    none, ?_⟩
  · exact ⟨_, expand_eq_kept pattern counterpart rules q.entries s, firstSeen_distinct _⟩
  · rw [turn, expandInTurn_eq]
    simp only [again, none, List.length_nil]

end Expand

end MigrationPlan
