import Mathlib.Data.Set.Function
import MigrationPlan.Config.Load
import MigrationPlan.Proofs.Document.Record

/- The written form of a configuration says all of it: it is read back as it was, and so
   configurations that differ have different trees and, as far as the writer and the digest keep
   these apart, different fingerprints. -/
namespace MigrationPlan

open Document

namespace Medium

theorem read_tree (m : Medium) : read m.tree = some m := by
  cases m <;> decide +kernel

end Medium

namespace Endpoint

theorem memberNames_distinct : Distinct memberNames := by decide +kernel

theorem read_tree (e : Endpoint) : read e.tree = some e := by
  unfold read tree
  rw [fields_record, knownMembers_written memberNames_distinct]
  · simp [orDefault_eq, List.lookup_cons, Medium.read_tree]
  · exact ((memberOf_sublist _ _).cons_cons _).subperm

end Endpoint

namespace OperationSetting

/-- A code is an integer in the tree and a name is a text, also one of digits. -/
theorem read_tree (s : OperationSetting) : read s.tree = some s := by
  cases s with
  | code n =>
    have low : Int64.minValue.toInt ≤ n.toInt := Int64.minValue_le_toInt n
    have high : n.toInt < Int64.maxValue.toInt + 1 := Int.lt_add_one_of_le (Int64.toInt_le n)
    have inside :
        integerIn Int64.minValue.toInt (Int64.maxValue.toInt + 1) (Tree.integer n.toInt) =
          some n.toInt := by
      simp only [integerIn, integer?, Option.filter_some, low, high, decide_true,
        Bool.and_self, if_true]
    simp only [read, tree, int64?, inside, Option.map_some, Int64.ofInt_toInt]
  | name s => rfl

end OperationSetting

namespace Request

theorem memberNames_distinct : Distinct memberNames := by decide +kernel

theorem read_tree (r : Request) : read r.tree = some r := by
  unfold read tree
  rw [fields_record, knownMembers_written memberNames_distinct]
  · simp [some_bind, required, orDefault_eq, List.lookup_cons, List.lookup_append,
      OperationSetting.read_tree, -Option.bind_eq_bind]
  · simp only [List.map_append]
    exact ((((List.Sublist.refl ["query", "operation"]).append
      (memberOf_sublist "externalId" _)).append
      (memberOf_sublist "deleteWhere" _)).append (List.Sublist.refl _)).subperm

end Request

namespace Yaml

theorem textLines_plain (indent : Nat) {s : String} (oneLine : s.contains '\n' = false)
    (plain : (!isAmbiguous s && allowsPlain s.toList) = true) :
    textLines indent s = s.toList ++ ['\n'] := by
  simp only [textLines, styleOf, oneLine, plain, Bool.false_eq_true, if_false, if_true]

theorem textLines_single (indent : Nat) {s : String} (oneLine : s.contains '\n' = false)
    (ambiguous : isAmbiguous s = true) (single : allowsSingle s.toList = true) :
    textLines indent s = '\'' :: singleQuoted indent false s.toList ++ ['\'', '\n'] := by
  simp only [textLines, styleOf, oneLine, ambiguous, single, Bool.not_true, Bool.false_and,
    Bool.false_eq_true, if_false, if_true]

end Yaml

namespace Config
open Yaml

theorem memberNames_distinct : Distinct memberNames := by decide +kernel

theorem read_tree (c : Config) : read c.tree = some c := by
  unfold read tree
  rw [fields_record, knownMembers_written memberNames_distinct (List.Subperm.refl _)]
  simp [required, orDefault_eq, List.lookup_cons, Endpoint.read_tree, itemsOf_map Request.read_tree]

theorem tree_injective : Function.Injective tree := by
  intro c d same
  have back : some c = some d := by rw [← read_tree c, same, read_tree d]
  exact Option.some.inj back

/-- On configurations whose trees the writer tells apart, and whose texts the digest tells apart. -/
theorem fingerprint_injOn {S : Set Config} (writer : Set.InjOn write (tree '' S))
    (digest : Set.InjOn Sha256.ofString (toYaml '' S)) : Set.InjOn fingerprint S := by
  intro c inS d inS' same
  have texts : c.toYaml = d.toYaml :=
    digest (Set.mem_image_of_mem _ inS) (Set.mem_image_of_mem _ inS') same
  have trees : c.tree = d.tree :=
    writer (Set.mem_image_of_mem _ inS) (Set.mem_image_of_mem _ inS') texts
  exact tree_injective trees

/-- The tree of a configuration says all of it, so that different configurations have different
    trees, and different fingerprints where the writer and the digest keep different things
    apart. -/
theorem written_form_lossless :
    (∀ c : Config, ∃ d, read c.tree = some d ∧ d = c ∧
      (d.validate = .ok () ↔ c.validate = .ok ())) ∧
      Function.Injective tree ∧
      ∀ S : Set Config, Set.InjOn write (tree '' S) → Set.InjOn Sha256.ofString (toYaml '' S) →
        Set.InjOn fingerprint S := by
  refine ⟨?_, tree_injective, ?_⟩
  · intro c
    exact ⟨c, read_tree c, rfl, Iff.rfl⟩
  · intro S writer digest
    exact fingerprint_injOn writer digest

def unnamed : Config := { source := {}, target := {}, deniedParents := [] }

def emptyNamed : Config := { unnamed with source := { name := some "" } }

theorem toYaml_unnamed :
    unnamed.toYaml = "source:\n  medium: org\ntarget:\n  medium: org\npersonAccounts: false\n" ++
      "excludedReferenceTargets: []\nobjects: []\n" := by
  have medium : textLines 4 "org" = "org\n".toList :=
    textLines_plain 4 (by simp) (by decide +kernel)
  simp only [toYaml, tree, unnamed, Endpoint.tree, Medium.tree, Medium.name, Tree.texts,
    Tree.memberOf?, Option.map_none, List.map_nil, write, itemLines, memberLines, recordLines,
    Nat.reduceAdd, medium]
  decide +kernel

theorem toYaml_emptyNamed :
    emptyNamed.toYaml =
      "source:\n  medium: org\n  name: ''\ntarget:\n  medium: org\npersonAccounts: false\n" ++
      "excludedReferenceTargets: []\nobjects: []\n" := by
  have medium : textLines 4 "org" = "org\n".toList :=
    textLines_plain 4 (by simp) (by decide +kernel)
  have name : textLines 4 "" = "''\n".toList :=
    textLines_single 4 (by simp) (by decide +kernel) (by decide +kernel)
  simp only [toYaml, tree, emptyNamed, unnamed, Endpoint.tree, Medium.tree, Medium.name, Tree.texts,
    Tree.memberOf?, Option.map_none, Option.map_some, List.map_nil, write, itemLines, memberLines,
    recordLines, Nat.reduceAdd, medium, name]
  decide +kernel

theorem written_form_lossless_unnamed :
    unnamed.tree ≠ emptyNamed.tree ∧ unnamed.fingerprint ≠ emptyNamed.fingerprint := by
  obtain ⟨_, trees, fingerprints⟩ := written_form_lossless
  have apart : unnamed ≠ emptyNamed := by decide +kernel
  have texts : unnamed.toYaml ≠ emptyNamed.toYaml := by
    rw [toYaml_unnamed, toYaml_emptyNamed]
    decide +kernel
  have digests : Sha256.ofString unnamed.toYaml ≠ Sha256.ofString emptyNamed.toYaml := by
    rw [toYaml_unnamed, toYaml_emptyNamed]
    decide +kernel
  have writer : Set.InjOn write (tree '' {unnamed, emptyNamed}) := by
    rw [Set.image_pair, Set.injOn_pair]
    exact fun same => absurd same texts
  have digest : Set.InjOn Sha256.ofString (toYaml '' {unnamed, emptyNamed}) := by
    rw [Set.image_pair, Set.injOn_pair]
    exact fun same => absurd same digests
  have injective := Set.injOn_pair.mp (fingerprints {unnamed, emptyNamed} writer digest)
  exact ⟨fun same => apart (trees same), fun same => apart (injective same)⟩

end Config

end MigrationPlan
