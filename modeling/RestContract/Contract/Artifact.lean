-- Artifacts: the models and request validators that methods name.
import RestContract.Backend.Integration
import RestContract.Schema.Document

namespace RestContract

/-- The mark of the draft of JSON Schema that models are written in. -/
def schemaDraft : String := "http://json-schema.org/draft-04/schema#"

/-- A named validation model. -/
structure Model where
  name : String
  contentType : String := contentTypeJson
  document : Document

namespace Model

/-- The schema of the model, marked with its draft in front. -/
def schemaJson (m : Model) : Json := .obj (("$schema", .str schemaDraft) :: m.document.entries)

def toJson (m : Model) : Json :=
  .obj [("name", .str m.name), ("contentType", .str m.contentType), ("schema", m.schemaJson)]

end Model

/-- A named request validator. -/
structure RequestValidator where
  name : String
  /-- Requests are checked against the request model. -/
  body : Bool
  /-- Required parameters have to be there. -/
  parameters : Bool
  deriving DecidableEq, Repr

def RequestValidator.toJson (v : RequestValidator) : Json :=
  .obj [("name", .str v.name), ("validateRequestBody", .bool v.body),
    ("validateRequestParameters", .bool v.parameters)]

end RestContract
