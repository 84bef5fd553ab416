import OpenApiClient.Document.Basic
import OpenApiClient.Naming.Operation
import OpenApiClient.Pointer

/-!
The operations of a document, each with the place where it stands: paths in the order of the
document, the methods of a path in the order that methods have.
-/

namespace OpenApiClient

-- An operation where it stands.
structure OperationSite where
  path : String
  item : PathItem
  method : HttpMethod
  operation : Operation

namespace OperationSite

def pathPointer (path : String) : String := "#/paths/" ++ Pointer.escapeSegment path

def pointer (o : OperationSite) : String := pathPointer o.path ++ "/" ++ o.method.key

def methodName (o : OperationSite) : String :=
  Naming.methodName o.method o.path o.operation.id?

def stem (o : OperationSite) : String :=
  Naming.operationStem o.method o.path o.operation.id?

end OperationSite

def Document.operations (d : Document) : List OperationSite :=
  d.paths.flatMap fun (path, item) =>
    item.operations.map fun (method, operation) => { path, item, method, operation }

end OpenApiClient
