import MigrationPlan.Proofs.Task.Lifecycle

/- The query by which a task deletes. It is made clause by clause from the resolved query, and has
   no ordering and no offset. What this means for the records it selects is said over all sets of
   records, whatever filters and orderings mean there. -/
namespace MigrationPlan
open Text

/-- The records of each object, with the meaning of filters and of orderings. -/
structure Records (ρ : Type) where
  rows : String → List ρ
  nodup : ∀ object, (rows object).Nodup
  satisfies : String → ρ → Bool
  sorted : String → List ρ → List ρ
  sorted_perm : ∀ ordering l, (sorted ordering l).Perm l

namespace Records

def single : Records Unit where
  rows _ := [()]
  nodup _ := by simp
  satisfies _ _ := true
  sorted _ l := l
  sorted_perm _ l := .refl l

def numbered (count : Nat) : Records Nat where
  rows _ := List.range count
  nodup _ := List.nodup_range
  satisfies _ _ := true
  sorted _ l := l.reverse
  sorted_perm _ l := l.reverse_perm

end Records

namespace Query
variable {ρ : Type}

def matching (q : Query) (db : Records ρ) : List ρ :=
  (db.rows q.object).filter fun x => q.filter.all fun filter => db.satisfies filter x

def arranged (q : Query) (db : Records ρ) : List ρ :=
  q.ordering.elim (q.matching db) fun o => db.sorted o (q.matching db)

/-- The records that a query selects: those that match, arranged, from its offset on and up to its
    limit. -/
def recordsIn (q : Query) (db : Records ρ) : List ρ :=
  let rest := (q.arranged db).drop (q.offset.getD 0).toNat
  q.limit.elim rest fun limit => rest.take limit.toNat

def unarranged (q : Query) : Query := { q with ordering := none, offset := none }

/-- Whether ordering and offset make no difference to which records are selected. -/
def SelectsAlike (q : Query) : Prop :=
  q.limit = some 0 ∨ q.offset.getD 0 = 0 ∧ (q.ordering = none ∨ q.limit = none)

theorem arranged_perm (q : Query) (db : Records ρ) : (q.arranged db).Perm (q.matching db) := by
  unfold arranged
  cases q.ordering with
  | none => exact .refl _
  | some o => exact db.sorted_perm o _

theorem unarranged_recordsIn (q : Query) (db : Records ρ) :
    q.unarranged.recordsIn db = q.limit.elim (q.matching db) fun limit =>
      (q.matching db).take limit.toNat := rfl

theorem recordsIn_perm {q : Query} (alike : q.SelectsAlike) (db : Records ρ) :
    (q.unarranged.recordsIn db).Perm (q.recordsIn db) := by
  rw [unarranged_recordsIn, recordsIn]
  rcases alike with nothing | ⟨fromFirst, unordered | unlimited⟩
  · simp [nothing]
  · simp [fromFirst, arranged, unordered]
  · simpa [fromFirst, unlimited] using (q.arranged_perm db).symm

theorem matching_single (q : Query) : q.matching .single = [()] := by
  simp [matching, Records.single]

theorem matching_numbered (q : Query) (count : Nat) :
    q.matching (.numbered count) = List.range count := by
  simp [matching, Records.numbered]

theorem arranged_single (q : Query) : q.arranged .single = [()] := by
  rw [arranged, matching_single]
  cases q.ordering <;> rfl

theorem offset_of_perm {q : Query} (limited : q.limit ≠ some 0)
    (same : (q.unarranged.recordsIn .single).Perm (q.recordsIn .single)) : q.offset.getD 0 = 0 := by
  by_contra skips
  have behind : [()].drop (q.offset.getD 0).toNat = [] := by
    rw [List.drop_eq_nil_iff]
    have positive : (q.offset.getD 0).toNat ≠ 0 := fun zero => skips (UInt64.toNat_inj.mp zero)
    simp only [List.length_singleton]
    omega
  rw [unarranged_recordsIn, matching_single, recordsIn, arranged_single, behind] at same
  cases limit : q.limit with
  | none => simp [limit] at same
  | some n =>
    have positive : n.toNat ≠ 0 := by
      intro zero
      have noRecords : n = 0 := UInt64.toNat_inj.mp zero
      exact limited (noRecords ▸ limit)
    simp [limit, positive] at same

theorem unordered_of_perm {q : Query} {n : UInt64} (limit : q.limit = some n) (positive : n ≠ 0)
    (fromFirst : q.offset.getD 0 = 0)
    (same : (q.unarranged.recordsIn (.numbered (n.toNat + 1))).Perm
      (q.recordsIn (.numbered (n.toNat + 1)))) :
    q.ordering = none := by
  cases ordering : q.ordering with
  | none => rfl
  | some o =>
    have room : n.toNat ≠ 0 := fun zero => positive (UInt64.toNat_inj.mp zero)
    have plain : q.unarranged.recordsIn (.numbered (n.toNat + 1)) = List.range n.toNat := by
      rw [unarranged_recordsIn, matching_numbered, limit]
      simp [List.take_range]
    -- the last record comes first, and the limit lets it in
    have last : n.toNat ∈ q.recordsIn (.numbered (n.toNat + 1)) := by
      rw [recordsIn, arranged, ordering, limit, fromFirst, matching_numbered]
      have turned :
          (List.range (n.toNat + 1)).reverse = n.toNat :: (List.range n.toNat).reverse := by
        rw [List.range_succ, List.reverse_concat]
      simp [Records.numbered, turned, List.take_cons (Nat.pos_of_ne_zero room)]
    have again := same.symm.mem_iff.mp last
    rw [plain] at again
    simp at again

theorem selectsAlike_iff (q : Query) :
    q.SelectsAlike ↔ ∀ (ρ : Type) (db : Records ρ),
      (q.unarranged.recordsIn db).Perm (q.recordsIn db) := by
  constructor
  · intro alike ρ db
    exact recordsIn_perm alike db
  · intro same
    by_cases nothing : q.limit = some 0
    · exact Or.inl nothing
    · have fromFirst := offset_of_perm nothing (same Unit .single)
      refine Or.inr ⟨fromFirst, ?_⟩
      cases limit : q.limit with
      | none => exact Or.inr rfl
      | some n =>
        left
        refine unordered_of_perm limit (fun zero =>
          ?_) fromFirst (same Nat (.numbered (n.toNat + 1)))
        rw [limit, zero] at nothing
        exact nothing rfl

end Query

namespace Request

theorem deleteQuery_unfiltered {r : Request}
    (unfiltered : r.deleteWhere.bind trimmed? = none) (q : Query) :
    r.deleteQuery .delete q = Query.unarranged { q with entries := [.plain recordId] } := by
  simp [deleteQuery, unfiltered, Query.unarranged]

end Request

namespace Task

/-- A task that deletes, by no filter of its own, deletes by its query without the ordering and the
    offset, in every state behind its set-up. So it deletes the records that its query selects,
    whatever records there are, exactly if the query skips none and does not order them to take a
    first part. -/
theorem deletes_unarranged (r : Request) (calls : List Call)
    (setUp : HasSetUp { request := r } calls)
    (deletes : (run { request := r } calls).brief.operation = .delete)
    (unfiltered : r.deleteWhere.bind trimmed? = none) :
    let t := run { request := r } calls
    ∃ d, t.brief.deleteQuery = some d ∧ d = { t.query with ordering := none, offset := none } ∧
      ((∀ (ρ : Type) (db : Records ρ), (d.recordsIn db).Perm (t.query.recordsIn db)) ↔
        t.query.SelectsAlike) := by
  intro t
  obtain ⟨q, operation, configuredId, read⟩ := run_readAs setUp
  have reached : t.stage ≠ .unconfigured := fun stage => (run_unconfigured r calls).mp stage setUp
  have formed : t.work.WellFormed r :=
    (run_keeps (t := { request := r }) (Work.wellFormed_kept r) trivial calls).work reached
  have entries : t.query.entries = [.plain recordId] := formed.selection.onlyRecordId deletes
  have chosen : operation = .delete := by
    rw [Task.brief, read.brief] at deletes
    exact deletes
  subst chosen
  refine ⟨t.query.unarranged, ?_, rfl, t.query.selectsAlike_iff.symm⟩
  have query : t.query = { q with entries := [.plain recordId] } := by
    rw [← entries]
    exact read.query
  have made : t.brief = r.brief (.ofQuery q) .delete configuredId := read.brief
  rw [made, query, ← Request.deleteQuery_unfiltered unfiltered q]
  rfl

def staleLeads : Request :=
  { query :=
      "SELECT Name FROM Lead WHERE IsConverted = false ORDER BY CreatedDate LIMIT 10 OFFSET 5"
    operation := .ofOperation .delete
    deleteWhere := some " " }

def staleLeadsWork : Work :=
  { brief :=
      { object := "Lead"
        operation := .delete
        deleteQuery := some
          { object := "Lead", entries := [.plain "Id"], filter := some "IsConverted = false",
            limit := some 10 } }
    query :=
      { object := "Lead"
        entries := [.plain "Id"]
        filter := some "IsConverted = false"
        ordering := some "CreatedDate"
        limit := some 10
        offset := some 5 }
    queryText :=
      "SELECT Id FROM Lead WHERE IsConverted = false ORDER BY CreatedDate LIMIT 10 OFFSET 5" }

theorem staleLeads_setUp : run { request := staleLeads } [.setUp betweenOrgs] =
    { request := staleLeads, stage := .configured staleLeadsWork } := by decide +kernel

theorem staleLeads_hasSetUp : HasSetUp { request := staleLeads } [.setUp betweenOrgs] := by
  by_contra never
  have stage := (run_unconfigured staleLeads [.setUp betweenOrgs]).mpr never
  rw [staleLeads_setUp] at stage
  cases stage

theorem deletes_unarranged_leads :
    HasSetUp { request := staleLeads } [.setUp betweenOrgs] ∧
      (run { request := staleLeads } [.setUp betweenOrgs]).brief.operation = .delete ∧
      staleLeads.deleteWhere.bind trimmed? = none ∧
      ∃ d, (run { request := staleLeads } [.setUp betweenOrgs]).brief.deleteQuery = some d ∧
        d.filter = some "IsConverted = false" ∧ d.limit = some 10 ∧ d.ordering = none ∧
          d.offset = none := by
  have deletes :
      (run { request := staleLeads } [.setUp betweenOrgs]).brief.operation = .delete := by
    rw [staleLeads_setUp]
    rfl
  have unfiltered : staleLeads.deleteWhere.bind trimmed? = none := by decide +kernel
  obtain ⟨d, made, same, _⟩ :=
    deletes_unarranged staleLeads [.setUp betweenOrgs] staleLeads_hasSetUp deletes unfiltered
  refine ⟨staleLeads_hasSetUp, deletes, unfiltered, d, made, ?_⟩
  rw [same, staleLeads_setUp]
  exact ⟨rfl, rfl, rfl, rfl⟩

/-- Of twenty numbered leads the query selects the ten from the fourteenth downwards, and the task
    deletes the first ten. -/
theorem deletes_other_records :
    let t := run { request := staleLeads } [.setUp betweenOrgs]
    HasSetUp { request := staleLeads } [.setUp betweenOrgs] ∧ t.brief.operation = .delete ∧
      staleLeads.deleteWhere.bind trimmed? = none ∧ t.query.ordering = some "CreatedDate" ∧
        t.query.offset = some 5 ∧
      t.query.recordsIn (.numbered 20) = [14, 13, 12, 11, 10, 9, 8, 7, 6, 5] ∧
      t.brief.deleteQuery.map (·.recordsIn (.numbered 20)) =
        some [0, 1, 2, 3, 4, 5, 6, 7, 8, 9] := by
  refine ⟨staleLeads_hasSetUp, ?_⟩
  rw [staleLeads_setUp]
  decide +kernel

end Task

end MigrationPlan
