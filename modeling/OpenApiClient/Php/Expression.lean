import OpenApiClient.Client.Value
import OpenApiClient.Php.Name

/-!
The expressions that make a value from its decoded form, and those that take it apart again.
-/

namespace OpenApiClient.Php

inductive Expression where
  -- Something that is read as it stands, such as a variable.
  | read (code : String)
  -- An object made from an array.
  | fromArray (className : String) (array : Expression)
  -- The case of an enum for a literal.
  | fromLiteral (className : String) (literal : Expression)
  | toArray (object : Expression)
  -- The literal of a case.
  | literalOf (case : Expression)
  -- A list with `body` for each element, which `body` calls `item`.
  | mapItems (body list : Expression)
  -- Null in place of something that is not there.
  | orNull (subject : Expression)
  -- Null when `subject` is null or not there.
  | ifSet (subject result : Expression)
  -- Null when `subject` is null.
  | unlessNull (subject result : Expression)
  deriving DecidableEq, Repr

namespace Expression

def text : Expression → String
  | read code => code
  | fromArray className array => className ++ "::fromArray(" ++ array.text ++ ")"
  | fromLiteral className literal => className ++ "::from(" ++ literal.text ++ ")"
  | toArray object => object.text ++ "->toArray()"
  | literalOf case => case.text ++ "->value"
  | mapItems body list => "array_map(static fn ($item) => " ++ body.text ++ ", " ++ list.text ++ ")"
  | orNull subject => subject.text ++ " ?? null"
  | ifSet subject result => "isset(" ++ subject.text ++ ") ? " ++ result.text ++ " : null"
  | unlessNull subject result => subject.text ++ " === null ? null : " ++ result.text

def item : Expression := .read "$item"

-- What makes a value from its decoded form.
def hydrate (root : String) : Factory → Expression → Expression
  | .direct, e => e
  | .object name, e => .fromArray (modelClass root name) e
  | .enumeration name, e => .fromLiteral (modelClass root name) e
  | .list element, e => .mapItems (hydrate root element item) e

-- What takes a value back to plain data.
def dehydrate : Factory → Expression → Expression
  | .direct, e => e
  | .object _, e => .toArray e
  | .enumeration _, e => .literalOf e
  | .list element, e => .mapItems (dehydrate element item) e

end Expression

end OpenApiClient.Php
