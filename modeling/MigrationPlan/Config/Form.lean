import MigrationPlan.Config.Basic

/- The written form of configurations: the tree of one, and its reading back from any document. -/
namespace MigrationPlan

open Document

namespace Medium

def tree (m : Medium) : Tree := .text m.name

def read {δ : Type} [Document δ] : δ → Option Medium :=
  choiceOf [(org.name, org), (csvFile.name, csvFile)]

end Medium

namespace Endpoint

def tree (e : Endpoint) : Tree :=
  .record (("medium", e.medium.tree) :: Tree.memberOf? "name" (e.name.map .text))

def memberNames : List FieldName :=
  FieldName.ofNames ["medium", "name"]

def read {δ : Type} [Document δ] (d : δ) : Option Endpoint := do
  let m ← fields? memberNames d
  return {
    medium := ← orDefault m "medium" .org Medium.read
    name := ← orDefault m "name" none maybeText }

end Endpoint

namespace Request

def tree (r : Request) : Tree :=
  .record ([("query", .text r.query), ("operation", r.operation.tree)]
    ++ Tree.memberOf? "externalId" (r.externalId.map .text)
    ++ Tree.memberOf? "deleteWhere" (r.deleteWhere.map .text)
    ++ [("excludedFields", .texts r.excludedFields), ("deleteOldData", .flag r.deleteOldData),
      ("updateWithMockData", .flag r.updateWithMockData), ("mockCSVData", .flag r.mockCsvData),
      ("useCSVValuesMapping", .flag r.useCsvValuesMapping), ("allRecords", .flag r.allRecords),
      ("excluded", .flag r.excluded), ("isExtraObject", .flag r.isExtraObject),
      ("processAllSource", .flag r.processAllSource),
      ("processAllTarget", .flag r.processAllTarget)])

def memberNames : List FieldName :=
  FieldName.ofNames ["query", "operation", "externalId", "deleteWhere", "excludedFields",
    "deleteOldData", "updateWithMockData", "mockCSVData", "useCSVValuesMapping", "allRecords",
    "excluded", "isExtraObject", "processAllSource", "processAllTarget"]

def read {δ : Type} [Document δ] (d : δ) : Option Request := do
  let m ← fields? memberNames d
  let flagOf name := orDefault m name false flag?
  return {
    query := ← required m "query" text?
    operation := ← orDefault m "operation" (.ofOperation .readonly) OperationSetting.read
    externalId := ← orDefault m "externalId" none maybeText
    deleteWhere := ← orDefault m "deleteWhere" none maybeText
    excludedFields := ← orDefault m "excludedFields" [] texts?
    deleteOldData := ← flagOf "deleteOldData"
    updateWithMockData := ← flagOf "updateWithMockData"
    mockCsvData := ← flagOf "mockCSVData"
    useCsvValuesMapping := ← flagOf "useCSVValuesMapping"
    allRecords := ← orDefault m "allRecords" true flag?
    excluded := ← flagOf "excluded"
    isExtraObject := ← flagOf "isExtraObject"
    processAllSource := ← flagOf "processAllSource"
    processAllTarget := ← flagOf "processAllTarget" }

end Request

namespace Config

def tree (c : Config) : Tree :=
  .record [("source", c.source.tree), ("target", c.target.tree),
    ("personAccounts", .flag c.personAccounts),
    ("excludedReferenceTargets", .texts c.deniedParents),
    ("objects", .list (c.requests.map Request.tree))]

def memberNames : List FieldName :=
  FieldName.ofNames ["source", "target", "personAccounts", "excludedReferenceTargets", "objects"]

def read {δ : Type} [Document δ] (d : δ) : Option Config := do
  let m ← fields? memberNames d
  return {
    source := ← required m "source" Endpoint.read
    target := ← required m "target" Endpoint.read
    personAccounts := ← orDefault m "personAccounts" false flag?
    deniedParents := ← orDefault m "excludedReferenceTargets" defaultDeniedParents texts?
    requests := ← orDefault m "objects" [] (itemsOf Request.read) }

end Config

end MigrationPlan
