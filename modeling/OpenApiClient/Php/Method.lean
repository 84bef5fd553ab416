import OpenApiClient.Client.Endpoint
import OpenApiClient.Php.Name
import OpenApiClient.Php.TypeName
import OpenApiClient.Text.Unsigned

/-!
The method for an operation: its parameters, and what it makes of the status of a response. A status
that is documented exactly wins over a range of statuses, and that over the default.
-/

namespace OpenApiClient.Php

structure MethodParameter where
  -- The variable, without its dollar sign.
  name : String
  declared : String
  described : String
  description : Option String
  required : Bool
  deriving DecidableEq, Repr

namespace MethodParameter

-- A parameter that is not required may be null.
def ofHints (root name : String) (hints : Hints) (required : Bool) (description : Option String) :
    MethodParameter :=
  let declared := declaredType root hints
  let described := describedType root hints
  let optional := !required && !hints.isNullable
  { name
    declared := if optional then nullable declared else declared
    described := if optional then described ++ "|null" else described
    description
    required }

def text (p : MethodParameter) : String :=
  p.declared ++ " $" ++ p.name ++ if p.required then "" else " = null"

end MethodParameter

-- The variable for the body of a request.
def payloadVariable : String := "requestBody"

-- The parameters of the method for an operation, those that are required first.
def methodParameters (root : String) (e : Endpoint) : List MethodParameter :=
  let parameters := e.arguments.map fun a =>
    MethodParameter.ofHints root (variableName a.name.camel) a.hints a.required a.description
  let body := e.payload.toList.map fun b =>
    MethodParameter.ofHints root payloadVariable b.hints b.required b.description
  let all := parameters ++ body
  all.filter (·.required) ++ all.filter (!·.required)

-- The statuses that an arm of the dispatch is for.
inductive StatusTest where
  | exactly (status : Nat)
  -- All statuses with this number of hundreds.
  | hundreds (digit : Nat)
  | otherwise
  deriving DecidableEq, Repr

namespace StatusTest

-- A range of statuses such as `4XX`.
def range? : List Char → Option StatusTest
  | digit :: rest =>
    if '1' ≤ digit ∧ digit ≤ '5' ∧ rest.map Char.toLower = ['x', 'x'] then
      some (.hundreds (Text.digitValue digit))
    else none
  | [] => none

-- What the key of a response says; a key of another form says nothing.
def ofKey? (key : String) : Option StatusTest :=
  if Naming.foldCase key = "default" then some .otherwise
  else
    match Text.readUnsigned 65535 key.toList with
    | some status => some (.exactly status)
    | none => range? key.toList

def accepts (status : Nat) : StatusTest → Bool
  | .exactly expected => status = expected
  | .hundreds digit => status / 100 = digit
  | .otherwise => true

def text : StatusTest → String
  | .exactly status => "$httpStatus === " ++ toString status
  | .hundreds digit => "intdiv($httpStatus, 100) === " ++ toString digit
  | .otherwise => "default"

end StatusTest

inductive StatusOutcome where
  | construct (className : String)
  -- The status is not documented.
  | fail (className : String)
  deriving DecidableEq, Repr

def StatusOutcome.text : StatusOutcome → String
  | .construct className => className ++ "::fromDecoded($httpStatus, $httpPayload, $httpHeaders)"
  | .fail className => "throw new " ++ className ++ "($httpStatus, $httpPayload, $httpHeaders)"

structure StatusArm where
  test : StatusTest
  outcome : StatusOutcome
  deriving DecidableEq, Repr

def StatusArm.text (a : StatusArm) : String := a.test.text ++ " => " ++ a.outcome.text ++ ","

-- The exception for a status that is not documented.
def exceptionClass (root : String) : String := rootClass root "ApiException"

-- The arm for a response, if its key says something.
def statusArm? (root : String) (r : StatusResponse) : Option StatusArm :=
  (StatusTest.ofKey? r.status).map fun test =>
    { test, outcome := .construct (responseClass root r.className) }

-- The arms in the order in which they are tried. Of several defaults the last one counts.
def statusArms (root : String) (responses : List StatusResponse) : List StatusArm :=
  let arms := responses.filterMap (statusArm? root)
  let exact := arms.filter fun a => a.test matches .exactly _
  let ranges := arms.filter fun a => a.test matches .hundreds _
  let default := (arms.filter (·.test = .otherwise)).getLast?
  exact ++ ranges ++
    [default.getD { test := .otherwise, outcome := .fail (exceptionClass root) }]

-- The first arm that takes a status decides.
def dispatch (arms : List StatusArm) (status : Nat) : Option StatusOutcome :=
  (arms.find? (·.test.accepts status)).map (·.outcome)

end OpenApiClient.Php
