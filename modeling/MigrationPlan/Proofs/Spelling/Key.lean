import Mathlib.Data.List.Forall2
import MigrationPlan.Proofs.Job.FirstSeen
import MigrationPlan.Proofs.Spelling.Query

/- What the key of an entry tells of it. The kinds share one space of texts and are told apart again
   by what the text holds, which no change of case touches; so lists that go by the names of entries
   that were read never take an entry of one kind for one of another. -/
namespace MigrationPlan
open Text

namespace Entry

/-- Entries of one kind whose texts, part by part, differ in ASCII case alone. -/
inductive Alike : Entry → Entry → Prop
  | plain {a b : String} : sameName a b = true → Alike (.plain a) (.plain b)
  | path {a b : String} : sameName a b = true → Alike (.path a) (.path b)
  | composite {parts parts' : List String} :
      List.Forall₂ (fun a b => sameName a b = true) parts parts' →
        Alike (.composite parts) (.composite parts')
  | expression {a b : String} : sameName a b = true → Alike (.expression a) (.expression b)

theorem folded_parts {parts parts' : List String} :
    List.Forall₂ (fun a b => sameName a b = true) parts parts' ↔
      parts.map fold = parts'.map fold := by
  rw [← List.forall₂_eq_eq_eq, List.forall₂_map_left_iff, List.forall₂_map_right_iff]
  simp only [sameName_iff]

theorem alike_iff {d e : Entry} : d.Alike e ↔ d.folded = e.folded := by
  constructor
  · intro alike
    cases alike with
    | plain same => rw [folded, (sameName_iff _ _).mp same, folded]
    | path same => rw [folded, (sameName_iff _ _).mp same, folded]
    | composite same => rw [folded, folded_parts.mp same, folded]
    | expression same => rw [folded, (sameName_iff _ _).mp same, folded]
  · intro same
    -- folding keeps the kind, so that only entries of one kind are left
    cases d <;> cases e <;>
      simp only [folded, reduceCtorEq, plain.injEq, path.injEq, composite.injEq,
        expression.injEq] at same
    case plain.plain => exact .plain ((sameName_iff _ _).mpr same)
    case path.path => exact .path ((sameName_iff _ _).mpr same)
    case composite.composite => exact .composite (folded_parts.mpr same)
    case expression.expression => exact .expression ((sameName_iff _ _).mpr same)

instance (d e : Entry) : Decidable (d.Alike e) :=
  decidable_of_iff (d.folded = e.folded) alike_iff.symm

theorem key_inj {s t : List Char} : (read s).key = (read t).key ↔ read s = read t := by
  constructor
  · intro same
    rw [← read_key s, same, read_key]
  · exact congrArg key

theorem sameName_key {s t : List Char} :
    sameName (read s).key (read t).key = true ↔ (read s).Alike (read t) := by
  rw [sameName_iff, alike_iff]
  constructor
  · intro same
    have texts : lower (read s).key.toList = lower (read t).key.toList := by
      rw [← toList_fold, same, toList_fold]
    rw [← read_key s, ← read_lower, texts, read_lower, read_key]
  · intro same
    rw [← key_folded, same, key_folded]

theorem parts_read {s : List Char} {parts : List String} (composed : read s = composite parts) :
    ∀ part ∈ parts, part ≠ "" ∧ Trimmed part.toList ∧ '$' ∉ part.toList := by
  obtain ⟨rest, marked⟩ := marked_of_read composed
  rw [read_marked marked] at composed
  obtain rfl := composite.inj composed
  intro part member
  obtain ⟨kept, inKept, rfl⟩ := List.mem_map.mp member
  obtain ⟨nonempty, trimmed, unmarked⟩ := mem_keptParts inKept
  rw [String.toList_ofList]
  exact ⟨fun empty => nonempty (String.ofList_eq_empty_iff.mp empty), trimmed, unmarked⟩

end Entry

namespace SelectList

theorem selects_read (l : List (List Char)) (t : List Char) :
    selects (l.map Entry.read) (Entry.read t).key = true ↔
      ∃ s ∈ l, (Entry.read s).Alike (Entry.read t) := by
  simp only [selects, List.any_map, List.any_eq_true, Function.comp_apply, Entry.isNamed,
    Entry.sameName_key]

theorem insert_read (l : List (List Char)) (t : List Char) :
    insert (l.map Entry.read) (Entry.read t) =
      if ∃ s ∈ l, (Entry.read s).Alike (Entry.read t) then l.map Entry.read
      else l.map Entry.read ++ [Entry.read t] := by
  simp only [insert, selects_read]

theorem distinct_read (l : List (List Char)) :
    FirstSeen (fun d e => d.Alike e) (l.map Entry.read) (distinct (l.map Entry.read)) := by
  refine (firstSeen_distinct _).congr fun d inFirst e inSecond => ?_
  obtain ⟨s, _, rfl⟩ := List.mem_map.mp inFirst
  obtain ⟨t, _, rfl⟩ := List.mem_map.mp inSecond
  rw [Bool.eq_iff_iff, decide_eq_true_iff, Entry.sameName_key]

end SelectList

/-- Reading the key of an entry that was read gives it back, so that the key tells the whole entry,
    and its name tells it up to ASCII case, the kind included. Hence a list of such entries has a
    name only through an entry of the same kind, takes a further one in unless it has one alike, and
    of those alike keeps the first. What a composite has are texts that neither are empty nor have
    blanks around them nor hold its mark. -/
theorem Entry.known_by_key (s t : List Char) (l : List (List Char)) :
    read (read t).key.toList = read t ∧
      ((read s).key = (read t).key ↔ read s = read t) ∧
      (sameName (read s).key (read t).key = true ↔ (read s).Alike (read t)) ∧
      (SelectList.selects (l.map read) (read t).key = true ↔ ∃ s ∈ l, (read s).Alike (read t)) ∧
      SelectList.insert (l.map read) (read t) =
        (if ∃ s ∈ l, (read s).Alike (read t) then l.map read else l.map read ++ [read t]) ∧
      FirstSeen (fun d e => d.Alike e) (l.map read) (SelectList.distinct (l.map read)) ∧
      ∀ parts, read t = composite parts →
        ∀ part ∈ parts, part ≠ "" ∧ Trimmed part.toList ∧ '$' ∉ part.toList :=
  ⟨read_key t, key_inj, sameName_key, SelectList.selects_read l t, SelectList.insert_read l t,
    SelectList.distinct_read l, fun _ composed => parts_read composed⟩

example : Entry.read " $$ Name $ $Email$".toList = .composite ["Name", "Email"] := by decide +kernel

end MigrationPlan
