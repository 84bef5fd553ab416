import OpenApiClient.Client.Api
import OpenApiClient.Php.ClassFile
import OpenApiClient.Php.Literal
import OpenApiClient.Php.Method

/-!
The class for a tag, with a method for each of its operations.
-/

namespace OpenApiClient.Php

-- The classes of the responses, each of them once.
def responseClasses (root : String) (e : Endpoint) : List String :=
  (e.responses.map (responseClass root ·.className)).eraseDups

-- Without documented responses a method returns what the server sends.
def returnType (root : String) (e : Endpoint) : String :=
  match responseClasses root e with
  | [] => "\\Psr\\Http\\Message\\ResponseInterface"
  | classes => "|".intercalate classes

-- Whether the comment says that a status that is not documented is an error.
def saysUndocumented (e : Endpoint) : Bool :=
  !e.responses.isEmpty && !e.responses.any (·.status = "default")

namespace MethodComment

-- The summary and the description, each followed by an empty line.
def descriptionLines (e : Endpoint) : List String :=
  [e.summary, e.description].flatMap fun text => text.toList.flatMap ([·, ""])

def parameterLine (p : MethodParameter) : String :=
  let description := match p.description with
    | some text => " " ++ text
    | none => ""
  "@param " ++ p.described ++ " $" ++ p.name ++ description

-- The comment as it is meant, before it is made safe.
def lines (root : String) (e : Endpoint) : List String :=
  let undocumented := if saysUndocumented e then
    ["@throws " ++ exceptionClass root ++ " when the status code is not documented"] else []
  let deprecated := if e.deprecated then ["@deprecated"] else []
  descriptionLines e ++ [e.method.name ++ " " ++ e.path, ""] ++
    (methodParameters root e).map parameterLine ++ ["@return " ++ returnType root e] ++
    undocumented ++ ["@throws \\Psr\\Http\\Client\\ClientExceptionInterface"] ++ deprecated

end MethodComment

def methodComment (root : String) (e : Endpoint) : Lines :=
  comment <| (MethodComment.lines root e).map fun line =>
    if line = "" then none else some (commentText line)

-- How the arguments for a location are passed on.
def locationGroups : List (String × ParameterLocation) :=
  [("pathParams", .path), ("query", .query), ("headers", .header), ("cookies", .cookie)]

-- The arguments for one location, under the names that the server knows.
def groupLines (e : Endpoint) (group : String × ParameterLocation) : Lines :=
  let entries := (e.argumentsIn group.2).map fun a =>
    string a.wireName ++ " => $" ++ variableName a.name.camel
  if entries = [] then [] else [group.1 ++ ": [" ++ ", ".intercalate entries ++ "],"]

-- The body, with its content type unless there is no body.
def payloadLines (e : Endpoint) : Lines :=
  match e.payload with
  | none => []
  | some b =>
    let contentType := string b.contentType
    let sent :=
      if b.required then contentType
      else "$" ++ payloadVariable ++ " === null ? null : " ++ contentType
    ["body: $" ++ payloadVariable ++ ",", "contentType: " ++ sent ++ ","]

def dispatchLines (root : String) (e : Endpoint) : Lines :=
  if e.responses = [] then ["return $httpResponse;"]
  else
    ["$httpStatus = $httpResponse->getStatusCode();",
      "$httpPayload = $this->decode($httpResponse);",
      "$httpHeaders = $httpResponse->getHeaders();",
      ""] ++
    enclose "return match (true) \x7b" ((statusArms root e.responses).map (·.text)) "\x7d;"

def methodLines (root : String) (e : Endpoint) : Lines :=
  let signature := ", ".intercalate ((methodParameters root e).map (·.text))
  methodComment root e ++
    braced ("public function " ++ methodName e.methodName ++ "(" ++ signature ++ "): " ++
        returnType root e)
      (enclose "$httpResponse = $this->send("
          ([string e.method.name ++ ",", string e.path ++ ","] ++
            locationGroups.flatMap (groupLines e) ++ payloadLines e) ");" ++
        [""] ++ dispatchLines root e)

-- The operations of a class, or the first position that has none.
def apiEndpoints (a : Api) (endpoints : List Endpoint) : Except Nat (List Endpoint) :=
  a.operations.mapM fun i =>
    match endpoints[i]? with
    | some e => .ok e
    | none => .error i

-- The class for a tag with the given operations.
def apiFile (root : String) (a : Api) (endpoints : List Endpoint) : ClassFile :=
  let description := match nonempty a.description with
    | some text => commentText text
    | none => "Operations tagged \"" ++ a.tag.written ++ "\"."
  { root
    sub := some "Api"
    name := a.className
    preamble := ["use " ++ trimNamespace root ++ "\\AbstractApi;", ""] ++ comment [some description]
    keyword := "final class"
    heritage := " extends AbstractApi"
    members := spaced (endpoints.map (methodLines root)) }

end OpenApiClient.Php
