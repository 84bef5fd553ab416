/-!
The HTTP methods that a path can have an operation for.
-/

namespace OpenApiClient

inductive HttpMethod where
  | get
  | put
  | post
  | delete
  | options
  | head
  | patch
  | trace
  deriving DecidableEq, Repr

namespace HttpMethod

-- The order in which the operations of a path are visited, however the document lists them.
def all : List HttpMethod := [.get, .put, .post, .delete, .options, .head, .patch, .trace]

theorem mem_all (m : HttpMethod) : m ∈ all := by cases m <;> decide

def name : HttpMethod → String
  | .get => "GET"
  | .put => "PUT"
  | .post => "POST"
  | .delete => "DELETE"
  | .options => "OPTIONS"
  | .head => "HEAD"
  | .patch => "PATCH"
  | .trace => "TRACE"

def key : HttpMethod → String
  | .get => "get"
  | .put => "put"
  | .post => "post"
  | .delete => "delete"
  | .options => "options"
  | .head => "head"
  | .patch => "patch"
  | .trace => "trace"

def ofKey? (key : String) : Option HttpMethod :=
  all.find? (·.key = key)

theorem ofKey?_key (m : HttpMethod) : ofKey? m.key = some m := by cases m <;> decide

end HttpMethod

end OpenApiClient
