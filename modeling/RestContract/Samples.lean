-- Samples: a compute unit, an authorizer, a policy, schemas, definitions and the declaration
-- of a small API of users, to try things out on.
import RestContract.Declaration

namespace RestContract.Samples

/-- A compute unit with its full identifier. -/
def templateFunction : ComputeUnit where
  functionName := "template-lambda"
  arn := some "arn:aws:lambda:eu-central-1:123456789012:function:template-lambda"

/-- An authorizer of a user pool. -/
def userPoolAuthorizer : Authorizer where
  id := "user-pool-authorizer"
  identitySource := some "method.request.header.Authorization"

/-- A policy with that authorizer that allows every origin. -/
def globalPolicy : GlobalPolicy where
  authorizer := some userPoolAuthorizer
  cors := some {}

def userSchema : TypeSchema :=
  .object [("id", .string), ("email", .string), ("name", .optional .string),
    ("role", .union [.literal (.str "admin"), .literal (.str "user")])]

def createUserSchema : TypeSchema :=
  .object [("email", .string), ("name", .optional .string)]

def errorSchema : TypeSchema := .object [("message", .string)]

/-- A definition with a single response. -/
def getUserDefinition : ResourceDefinition :=
  .compute { function := templateFunction, metadata := { responses := some (.single userSchema) } }

/-- A definition with a request, two responses and a scope. -/
def createUserDefinition : ResourceDefinition :=
  .compute
    { function := templateFunction
      metadata :=
        { request := some createUserSchema
          responses := some (.list [⟨201, userSchema⟩, ⟨400, errorSchema⟩])
          authorizationScopes := some ["users/write"] } }

/-- An open definition with a query parameter. -/
def publicSearchDefinition : ResourceDefinition :=
  .compute
    { function := templateFunction
      queryParams := [("q", true)]
      metadata := { auth := .disabled } }

/-- The integration that calls an endpoint for every path. -/
def httpBackend : Integration := .calling "https://backend.example.com/\x7bproxy\x7d"

/-- A definition with an authorizer of its own. -/
def reportDefinition : ResourceDefinition :=
  .wrapped httpBackend
    { auth := .authorizer { id := "report-authorizer", kind := .token }
      authorizationScopes := some ["reports/read"] }

/-- A definition that opens its route, as it is written. -/
def openDefinitionJson : Json := .obj [("function", .str "template-lambda"), ("auth", .bool false)]

/-- The API of users, in front of a backend. -/
def userApi : Declaration where
  name := "users"
  policy := globalPolicy
  routes := [("/users", .methods [(.post, createUserDefinition)]),
    ("/users/\x7bid\x7d", .methods [(.get, getUserDefinition)]),
    ("/backend", .proxy (.integration httpBackend))]

/-- An API with a definition of every kind, some on one resource. -/
def reportApi : Declaration where
  name := "reports"
  policy := globalPolicy
  routes := [("/reports", .methods [(.post, createUserDefinition), (.get, reportDefinition)]),
    ("reports/", .methods [(.put, .integration httpBackend), (.delete, publicSearchDefinition)]),
    ("//reports", .proxy (.integration httpBackend))]

/-- The routes of that API and the methods of each, from the last to the first. -/
def reversedReportRoutes : Entries String RouteDefinition :=
  [("//reports", .proxy (.integration httpBackend)),
    ("reports/", .methods [(.delete, publicSearchDefinition), (.put, .integration httpBackend)]),
    ("/reports", .methods [(.get, reportDefinition), (.post, createUserDefinition)])]

end RestContract.Samples
