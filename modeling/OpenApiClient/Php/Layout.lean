import OpenApiClient.Text.Blank
import OpenApiClient.Text.Replace

/-!
The layout of PHP files: lines, what is indented, and comments. Text from a document comes to a
comment folded onto one line, and without what would end the comment.
-/

namespace OpenApiClient.Php

abbrev Lines := List String

def indent (lines : Lines) : Lines :=
  lines.map fun line => if line = "" then "" else "    " ++ line

-- Lines between two others, one level further in.
def enclose (first : String) (body : Lines) (last : String) : Lines :=
  first :: indent body ++ [last]

def braced (head : String) (body : Lines) : Lines := head :: enclose "\x7b" body "\x7d"

-- A body in braces, the first of them on the line of its head.
def clause (head : String) (body : Lines) : Lines := enclose (head ++ " \x7b") body "\x7d"

-- A constructor that does nothing but take its parameters.
def constructorLines (parameters : Lines) : Lines :=
  enclose "public function __construct(" parameters ") \x7b" ++ ["\x7d"]

-- Parts with an empty line between them.
def spaced (parts : List Lines) : Lines := [""].intercalate parts

-- A comment line by line, where `none` is an empty line.
def comment (lines : List (Option String)) : Lines :=
  "/**" :: lines.map (fun | some text => " * " ++ text | none => " *") ++ [" */"]

def commentText (text : String) : String :=
  String.ofList (Text.replaceAll ['*', '/'] ['*', '\\', '/'] (Text.squeeze text.toList))

def nonempty (text : Option String) : Option String := text.filter (· ≠ "")

-- The comment on a class, if there is something to say.
def classComment (description : Option String) (deprecated : Bool) : Lines :=
  match nonempty description, deprecated with
  | some text, true => comment [some (commentText text), none, some "@deprecated"]
  | some text, false => comment [some (commentText text)]
  | none, true => comment [some "@deprecated"]
  | none, false => []

end OpenApiClient.Php
