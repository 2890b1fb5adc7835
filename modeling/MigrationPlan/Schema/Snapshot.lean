import MigrationPlan.Schema.Field

/- The schema of one object as one system has it. Field names are unique up to ASCII case. -/
namespace MigrationPlan
open Text

def placeField (l : List Field) (f : Field) : List Field :=
  if l.any fun g => sameName g.name f.name then l.map fun g =>
    if sameName g.name f.name then f else g
  else l ++ [f]

def foldedNames (l : List Field) : List String := l.map fun f => fold f.name

theorem foldedNames_placeField (l : List Field) (f : Field) :
    foldedNames (placeField l f) =
      if fold f.name ∈ foldedNames l then foldedNames l else foldedNames l ++ [fold f.name] := by
  have present : (l.any fun g => sameName g.name f.name) = true ↔ fold f.name ∈ foldedNames l := by
    simp [foldedNames, sameName]
  unfold placeField
  by_cases h : fold f.name ∈ foldedNames l
  · rw [if_pos (present.mpr h), if_pos h]
    simp only [foldedNames, List.map_map]
    refine List.map_congr_left fun g _ => ?_
    by_cases e : fold g.name = fold f.name <;> simp [sameName, e]
  · rw [if_neg (fun t => h (present.mp t)), if_neg h]
    simp [foldedNames]

theorem nodup_placeField {l : List Field} (h : (foldedNames l).Nodup) (f : Field) :
    (foldedNames (placeField l f)).Nodup := by
  rw [foldedNames_placeField]
  by_cases m : fold f.name ∈ foldedNames l
  · rwa [if_pos m]
  · rw [if_neg m]
    exact List.nodup_append.mpr ⟨h, by simp, by
      intro a ha b hb
      simp only [List.mem_singleton] at hb
      exact fun e => m (hb ▸ e ▸ ha)⟩

structure Snapshot where
  name : String
  label : String
  custom : Bool := false
  fields : List Field := []
  nodup : (foldedNames fields).Nodup := by simp [foldedNames]
  deriving DecidableEq, Repr

namespace Snapshot

def ofName (name : String) : Snapshot := { name, label := name }

def add (s : Snapshot) (f : Field) : Snapshot :=
  { s with fields := placeField s.fields f, nodup := nodup_placeField s.nodup f }

def addAll (s : Snapshot) (l : List Field) : Snapshot := l.foldl add s

def field? (s : Snapshot) (name : String) : Option Field :=
  s.fields.find? fun f => sameName f.name name

def hasField (s : Snapshot) (name : String) : Bool := s.fields.any fun f => sameName f.name name

def ownedBy (s : Snapshot) (owner : String) : Snapshot :=
  { s with
    fields := s.fields.map fun f => { f with owner := some owner }
    nodup := by
      have same :
          foldedNames (s.fields.map fun f => { f with owner := some owner }) =
            foldedNames s.fields := by
        simp [foldedNames]
      rw [same]
      exact s.nodup }

def tree (s : Snapshot) : Tree :=
  .record [("name", .text s.name), ("label", .text s.label), ("custom", .flag s.custom),
    ("fields", .list (s.fields.map Field.tree))]

def memberNames : List FieldName :=
  FieldName.ofNames ["name", "label", "custom", "fields"]

open Document in
def read {δ : Type} [Document δ] (d : δ) : Option Snapshot := do
  let m ← fields? memberNames d
  let name ← required m "name" text?
  let label ← orDefault m "label" "" text?
  let custom ← orDefault m "custom" false flag?
  let fields ← orDefault m "fields" [] (itemsOf Field.read)
  return ({ name, label, custom } : Snapshot).addAll fields

end Snapshot

end MigrationPlan
