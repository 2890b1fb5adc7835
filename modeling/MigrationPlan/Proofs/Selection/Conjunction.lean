import MigrationPlan.Proofs.Selection.Keyword
import MigrationPlan.Proofs.Spelling.Selection
import MigrationPlan.Proofs.Text.Trim

/- What a pattern means. It is the conjunction of the conditions that its keywords are, or
   everything; how the keywords are written, how often and in which order, does not matter. -/
namespace MigrationPlan
open Text

def Field.Meets (f : Field) : Condition → Prop
  | .creatable value => f.creatable = value
  | .updatable value => f.updatable = value
  | .readonly value => (f.creatable = false ∧ f.updatable = false) ↔ value = true
  | .custom value => f.custom = value
  | .autoNumber value => f.autoNumber = value
  | .lookup value => (f.referenceTo ≠ [] ∧ f.cascadeDelete = false) ↔ value = true
  | .masterDetail value => (f.referenceTo ≠ [] ∧ f.cascadeDelete = true) ↔ value = true
  | .ofType type => f.type = type

namespace Condition

theorem isReadonly_iff (f : Field) :
    f.isReadonly = true ↔ f.creatable = false ∧ f.updatable = false := by
  simp [Field.isReadonly]

theorem isLookup_iff (f : Field) :
    f.isLookup = true ↔ f.referenceTo ≠ [] ∧ f.cascadeDelete = false := by
  cases parents : f.referenceTo <;> cases cascade : f.cascadeDelete <;>
    simp [Field.isLookup, Field.relationship?, Field.referenceTarget?, parents, cascade]

theorem isMasterDetail_iff (f : Field) :
    f.isMasterDetail = true ↔ f.referenceTo ≠ [] ∧ f.cascadeDelete = true := by
  cases parents : f.referenceTo <;> cases cascade : f.cascadeDelete <;>
    simp [Field.isMasterDetail, Field.relationship?, Field.referenceTarget?, parents, cascade]

theorem holds_iff (f : Field) (c : Condition) : c.holds f = true ↔ f.Meets c := by
  have derived : ∀ a b : Bool, (a == b) = true ↔ (a = true ↔ b = true) := by decide
  cases c with
  | creatable value => exact beq_iff_eq
  | updatable value => exact beq_iff_eq
  | readonly value => rw [holds, derived, isReadonly_iff, Field.Meets]
  | custom value => exact beq_iff_eq
  | autoNumber value => exact beq_iff_eq
  | lookup value => rw [holds, derived, isLookup_iff, Field.Meets]
  | masterDetail value => rw [holds, derived, isMasterDetail_iff, Field.Meets]
  | ofType type => exact beq_iff_eq

/-- Keywords in lowercase stand as they are: there is nothing to trim and nothing to fold. -/
theorem Spelt.standing {s : String} {c : Condition} (spelt : Spelt s c) : fold (trimmed s) = s := by
  cases spelt with
  | flag known said =>
    simp only [keywordProperties, flagValues, List.mem_cons, Prod.mk.injEq, List.not_mem_nil,
      or_false] at known said
    rcases said with ⟨rfl, rfl⟩ | ⟨rfl, rfl⟩ <;>
    rcases known with ⟨rfl, rfl⟩ | ⟨rfl, rfl⟩ | ⟨rfl, rfl⟩ | ⟨rfl, rfl⟩ | ⟨rfl, rfl⟩ | ⟨rfl, rfl⟩
      | ⟨rfl, rfl⟩ | ⟨rfl, rfl⟩ | ⟨rfl, rfl⟩ <;> decide +kernel
  | @ofType t known =>
    revert known
    cases t <;> decide +kernel

end Condition

namespace Pattern

/-- A token is the keyword of a condition, whatever blanks are around it and whatever case it is
    in. -/
def Writes (token : String) (c : Condition) : Prop := Condition.Spelt (fold (trimmed token)) c

def WritesAll (token : String) : Prop := fold (trimmed token) = "all"

theorem isAll_iff (token : String) : isAll token = true ↔ WritesAll token := by
  have lower : fold "all" = "all" := by decide +kernel
  rw [isAll, sameName_iff, lower, WritesAll]

theorem isMatch_iff (p : Pattern) (f : Field) :
    p.isMatch f = true ↔ p.all = true ∨ (∃ c, c ∈ p.conditions) ∧
      ∀ c ∈ p.conditions, f.Meets c := by
  have nonempty : p.conditions.isEmpty = false ↔ ∃ c, c ∈ p.conditions :=
    List.isEmpty_eq_false_iff_exists_mem
  simp [isMatch, Condition.holds_iff, ← nonempty]

theorem all_ofTokens (l : List String) :
    (ofTokens l).all = true ↔ ∃ token ∈ l, WritesAll token := by
  simp only [ofTokens_all, List.any_eq_true, isAll_iff]

theorem mem_ofTokens {l : List String} {c : Condition} :
    c ∈ (ofTokens l).conditions ↔ ∃ token ∈ l, Writes token c := by
  have trans : ∀ a b d : Condition, (a == b) = true → (b == d) = true → (a == d) = true := by
    intro a b d ab bd
    rwa [beq_iff_eq.mp ab]
  have kept := (ofTokens_conditions l).any_kept trans c
  rw [← List.contains_eq_any_beq, ← List.contains_eq_any_beq, Bool.eq_iff_iff,
    List.contains_iff_mem, List.contains_iff_mem, List.mem_filterMap] at kept
  simp only [kept, Condition.ofKeyword_eq_some, Writes]

theorem isMatch_ofTokens (l : List String) (f : Field) :
    (ofTokens l).isMatch f = true ↔
      (∃ token ∈ l, WritesAll token) ∨
        (∃ token ∈ l, ∃ c, Writes token c) ∧ ∀ token ∈ l, ∀ c, Writes token c → f.Meets c := by
  have nonempty : (∃ c, c ∈ (ofTokens l).conditions) ↔ ∃ token ∈ l, ∃ c, Writes token c := by
    simp only [mem_ofTokens]
    exact ⟨fun ⟨c, token, member, writes⟩ => ⟨token, member, c, writes⟩,
      fun ⟨token, member, c, writes⟩ => ⟨c, token, member, writes⟩⟩
  have every : (∀ c ∈ (ofTokens l).conditions, f.Meets c) ↔
      ∀ token ∈ l, ∀ c, Writes token c → f.Meets c := by
    simp only [mem_ofTokens]
    exact ⟨fun meets token member c writes => meets c ⟨token, member, writes⟩,
      fun meets c ⟨token, member, writes⟩ => meets token member c writes⟩
  rw [isMatch_iff, all_ofTokens, nonempty, every]

/-- Ways to write a list of tokens anew. -/
inductive Rewritten : List String → List String → Prop where
  | reordered {l m : List String} (perm : l.Perm m) : Rewritten l m
  | repeated {l : List String} {token : String} (again : token ∈ l) : Rewritten l (token :: l)
  | padded (l m : List String) {before after : List Char} (blank : Blank before)
      (blank' : Blank after) (token : String) :
      Rewritten (l ++ token :: m) (l ++ String.ofList (before ++ token.toList ++ after) :: m)
  | respelt (l m : List String) {a b : String} (same : sameName a b = true) :
      Rewritten (l ++ a :: m) (l ++ b :: m)
  | renamed (l m : List String) {property property' text : String} {make : Bool → Condition}
      {value : Bool} (known : (property, make) ∈ Condition.keywordProperties)
      (known' : (property', make) ∈ Condition.keywordProperties)
      (said : (text, value) ∈ Condition.flagValues) :
      Rewritten (l ++ (property ++ "_" ++ text) :: m) (l ++ (property' ++ "_" ++ text) :: m)
  | symm {l m : List String} (h : Rewritten l m) : Rewritten m l
  | trans {l m k : List String} (h : Rewritten l m) (h' : Rewritten m k) : Rewritten l k

structure SameKeywords (l m : List String) : Prop where
  all : (∃ token ∈ l, WritesAll token) ↔ ∃ token ∈ m, WritesAll token
  condition : ∀ c, (∃ token ∈ l, Writes token c) ↔ ∃ token ∈ m, Writes token c

theorem SameKeywords.of_mem {l m : List String} (same : ∀ token, token ∈ l ↔ token ∈ m) :
    SameKeywords l m := by
  constructor
  · simp only [same]
  · simp only [same, implies_true]

theorem SameKeywords.one {a b : String} (all : WritesAll a ↔ WritesAll b)
    (condition : ∀ c, Writes a c ↔ Writes b c)
    (l m : List String) : SameKeywords (l ++ a :: m) (l ++ b :: m) := by
  constructor
  · simp only [List.mem_append, List.mem_cons, or_and_right, exists_or, exists_eq_left, all]
  · intro c
    simp only [List.mem_append, List.mem_cons, or_and_right, exists_or, exists_eq_left, condition]

theorem SameKeywords.of_folded {a b : String} (same : fold (trimmed a) = fold (trimmed b))
    (l m : List String) :
    SameKeywords (l ++ a :: m) (l ++ b :: m) :=
  .one (by rw [WritesAll, WritesAll, same]) (fun c => by rw [Writes, Writes, same]) l m

theorem writes_unique {token : String} {c d : Condition} (h : Writes token c)
    (h' : Writes token d) : c = d := by
  rw [Writes, ← Condition.ofKeyword_eq_some] at h h'
  exact Option.some.inj (h.symm.trans h')

theorem not_writesAll {token : String} {c : Condition} (h : Writes token c) :
    ¬ WritesAll token := by
  rw [← isAll_iff]
  intro all
  rw [Writes, ← Condition.ofKeyword_eq_some, isAll_not_condition all] at h
  cases h

theorem SameKeywords.of_condition {a b : String} {c : Condition} (h : Writes a c) (h' : Writes b c)
    (l m : List String) :
    SameKeywords (l ++ a :: m) (l ++ b :: m) := by
  refine .one ?_ ?_ l m
  · simp only [not_writesAll h, not_writesAll h']
  · intro d
    constructor
    · intro written
      exact writes_unique h written ▸ h'
    · intro written
      exact writes_unique h' written ▸ h

theorem Rewritten.sameKeywords {l m : List String} (h : Rewritten l m) : SameKeywords l m := by
  induction h with
  | reordered perm => exact .of_mem fun token => perm.mem_iff
  | repeated again =>
    refine .of_mem fun token => ?_
    rw [List.mem_cons]
    exact ⟨Or.inr, fun either => either.elim (fun same => same ▸ again) id⟩
  | padded l m blank blank' token =>
    refine .of_folded ?_ l m
    rw [trimmed, trimmed, String.toList_ofList, trim_around _ blank blank']
  | @respelt l m a b same =>
    refine .of_folded ?_ l m
    rw [← trimmed_fold, (sameName_iff a b).mp same, trimmed_fold]
  | renamed l m known known' said =>
    have writes : ∀ {s : String} {c : Condition}, Condition.Spelt s c → Writes s c :=
      fun spelt => by
      rw [Writes, spelt.standing]
      exact spelt
    exact .of_condition (writes (.flag known said)) (writes (.flag known' said)) l m
  | symm h ih => exact ⟨ih.all.symm, fun c => (ih.condition c).symm⟩
  | trans h h' ih ih' =>
    exact ⟨ih.all.trans ih'.all, fun c => (ih.condition c).trans (ih'.condition c)⟩

theorem SameKeywords.isMatch {l m : List String} (h : SameKeywords l m) :
    (ofTokens l).isMatch = (ofTokens m).isMatch := by
  funext f
  have all : (ofTokens l).all = true ↔ (ofTokens m).all = true := by
    rw [all_ofTokens, all_ofTokens, h.all]
  have conditions : ∀ c, c ∈ (ofTokens l).conditions ↔ c ∈ (ofTokens m).conditions := by
    intro c
    rw [mem_ofTokens, mem_ofTokens, h.condition]
  rw [Bool.eq_iff_iff, isMatch_iff, isMatch_iff, all]
  simp only [conditions]

theorem isMatch_accept {p : Pattern} {token : String} {c : Condition} {f : Field}
    (nonempty : p.conditions ≠ [])
    (writes : Writes token c) (isMatch : (p.accept token).isMatch f = true) :
    p.isMatch f = true := by
  have known := Condition.ofKeyword_eq_some.mpr writes
  have noAll : isAll token = false := by
    rw [← Bool.not_eq_true, isAll_iff]
    exact not_writesAll writes
  have more : ∀ d ∈ p.conditions, d ∈ (p.accept token).conditions := by
    intro d member
    rw [accept_conditions, known, Option.elim_some]
    split
    · exact member
    · exact List.mem_append_left _ member
  rw [isMatch_iff, accept_all, noAll, Bool.or_false] at isMatch
  rw [isMatch_iff]
  rcases isMatch with all | ⟨_, meets⟩
  · exact Or.inl all
  · exact Or.inr ⟨List.exists_mem_of_ne_nil _ nonempty, fun d member => meets d (more d member)⟩

/-- A pattern matches everything if a token is `all`, and else what meets all conditions that tokens
    are keywords of, if there are any. So it matches the same fields however its tokens are written
    anew, and no more fields when a condition is added to others. -/
theorem pattern_is_conjunction :
    (∀ (l : List String) (f : Field), (ofTokens l).isMatch f = true ↔
      (∃ token ∈ l, WritesAll token) ∨
        (∃ token ∈ l, ∃ c, Writes token c) ∧ ∀ token ∈ l, ∀ c, Writes token c → f.Meets c) ∧
      (∀ l m, Rewritten l m →
        ∀ s : Snapshot, s.fields.filter (ofTokens m).isMatch =
          s.fields.filter (ofTokens l).isMatch) ∧
      (∀ (p : Pattern) (token : String) (c : Condition) (f : Field), p.conditions ≠ [] →
        Writes token c →
        (p.accept token).isMatch f = true → p.isMatch f = true) := by
  refine ⟨isMatch_ofTokens, ?_, ?_⟩
  · intro l m rewritten s
    rw [rewritten.sameKeywords.isMatch]
  · intro p token c f nonempty writes isMatch
    exact isMatch_accept nonempty writes isMatch

def plainTokens : List String := ["creatable_true", "custom_false", "Name"]

def looseTokens : List String := ["custom_false", " CREATEABLE_true\t", "custom_false", "Name"]

theorem plainTokens_rewritten : Rewritten plainTokens looseTokens := by
  have renamed : Rewritten plainTokens ["createable_true", "custom_false", "Name"] :=
    @Rewritten.renamed [] ["custom_false", "Name"] "creatable" "createable" "true" .creatable true
      (by simp [Condition.keywordProperties]) (by simp [Condition.keywordProperties])
        (by simp [Condition.flagValues])
  have respelt :
      Rewritten ["createable_true", "custom_false", "Name"]
        ["CREATEABLE_true", "custom_false", "Name"] :=
    .respelt [] ["custom_false", "Name"] (by decide +kernel)
  have padded :
      Rewritten ["CREATEABLE_true", "custom_false", "Name"]
        [" CREATEABLE_true\t", "custom_false", "Name"] :=
    @Rewritten.padded [] ["custom_false", "Name"] [' '] ['\t'] blank_space (by simp [Blank]; decide)
      "CREATEABLE_true"
  have repeated : Rewritten [" CREATEABLE_true\t", "custom_false", "Name"] looseTokens :=
    .repeated (by simp)
  exact .trans renamed (.trans respelt (.trans padded repeated))

def ratedContacts : Snapshot :=
  (Snapshot.ofName "Contact").addAll
    [.ofType "Id" .id, (Field.ofType "LastName" .string).writable,
      (Field.ofType "Rating__c" .int).writable,
     { (Field.ofType "Score__c" .int).writable with custom := true }]

theorem pattern_is_conjunction_contacts :
    Rewritten plainTokens looseTokens ∧
      (ratedContacts.fields.filter (ofTokens looseTokens).isMatch).map Field.name =
        ["LastName", "Rating__c"] ∧
      Writes "type_INT" (.ofType .int) ∧ ((ofTokens looseTokens).accept "type_INT").isMatch
        (Field.ofType "Rating__c" .int).writable = true ∧
      (ofTokens looseTokens).isMatch (Field.ofType "Rating__c" .int).writable = true := by
  obtain ⟨_, rewriting, narrowing⟩ := pattern_is_conjunction
  have same := rewriting plainTokens looseTokens plainTokens_rewritten ratedContacts
  have writes : Writes "type_INT" (.ofType .int) :=
    Condition.ofKeyword_eq_some.mp (by decide +kernel)
  have narrowed :
      ((ofTokens looseTokens).accept "type_INT").isMatch (Field.ofType "Rating__c" .int).writable =
        true := by
    decide +kernel
  refine ⟨plainTokens_rewritten, ?_, writes, narrowed,
    narrowing _ _ _ _ (by decide +kernel) writes narrowed⟩
  rw [same]
  decide +kernel

end Pattern

end MigrationPlan
