import OpenApiClient.Client.Response
import OpenApiClient.Php.ClassFile
import OpenApiClient.Php.Expression
import OpenApiClient.Php.Literal
import OpenApiClient.Php.TypeName

/-!
The class for a response. An empty payload decodes to null, so that a body may always be null.
-/

namespace OpenApiClient.Php

structure DeclaredBody where
  contentType : String
  declared : String
  described : String
  read : Expression

def DeclaredBody.ofBody (root : String) (b : ResponseBody) : DeclaredBody :=
  let described := describedType root b.value.hints
  let input := .read "$body"
  { contentType := b.contentType
    declared := nullable (declaredType root b.value.hints)
    described := if b.value.hints.isNullable then described else described ++ "|null"
    read := match b.value.factory with
      | .direct => input
      | factory => .unlessNull input (.hydrate root factory input) }

namespace ResponseFile

def headersLine : String := "@param array<string, list<string>> $headers"

def classLines (name description : String) (body : Option DeclaredBody) : Lines :=
  let described := if description = "" then name else commentText description
  comment (some described :: body.toList.flatMap fun b => [none, some ("Body: " ++ b.contentType)])

def constructor (body : Option DeclaredBody) : Lines :=
  let described := body.toList.map fun b => "@param " ++ b.described ++ " $body"
  let declared := body.toList.map fun b => "public readonly " ++ b.declared ++ " $body = null,"
  comment ((described ++ [headersLine]).map some) ++
    constructorLines
      (["public readonly int $statusCode,"] ++ declared ++ ["public readonly array $headers = [],"])

def fromDecoded (body : Option DeclaredBody) : Lines :=
  let given := body.toList.map fun b => "body: " ++ b.read.text ++ ","
  comment [some headersLine] ++
    braced ("public static function fromDecoded(int $statusCode, mixed $body, " ++
        "array $headers = []): self")
      (enclose "return new self("
        (["statusCode: $statusCode,"] ++ given ++ ["headers: $headers,"]) ");")

end ResponseFile

def responseFile (root : String) (c : ResponseClass) : ClassFile :=
  let name := className "Response" c.name
  let body := c.body.map (.ofBody root)
  let status := c.status.toList.map fun s => ["public const STATUS = " ++ string s ++ ";"]
  { root
    sub := some "Response"
    name
    preamble := ResponseFile.classLines name c.description body
    keyword := "final class"
    heritage := ""
    members := spaced (status ++ [ResponseFile.constructor body, ResponseFile.fromDecoded body]) }

end OpenApiClient.Php
