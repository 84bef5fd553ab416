import OpenApiClient.Php.Layout
import OpenApiClient.Php.Name

/-!
Files that declare one class each. Where a file lies and what its class is called in full both come
from the same two things: the part of the namespace that the class is in, and its name.
-/

namespace OpenApiClient.Php

structure ClassFile where
  root : String
  -- The part of the namespace below the root, unless the class is in the root itself.
  sub : Option String
  name : String
  -- What is imported, and the comment on the class.
  preamble : Lines
  -- What stands before the name of the class, and after it.
  keyword : String
  heritage : String
  members : Lines
  deriving Repr

namespace ClassFile

def declaredNamespace (f : ClassFile) : String :=
  match f.sub with
  | some sub => within f.root sub
  | none => trimNamespace f.root

-- Below the directory for sources, a part of the namespace is a directory.
def path (f : ClassFile) : String :=
  match f.sub with
  | some sub => "src/" ++ sub ++ "/" ++ f.name ++ ".php"
  | none => "src/" ++ f.name ++ ".php"

def fullName (f : ClassFile) : String :=
  match f.sub with
  | some sub => rootClass f.root (sub ++ "\\" ++ f.name)
  | none => rootClass f.root f.name

def declaration (f : ClassFile) : Lines :=
  braced (f.keyword ++ " " ++ f.name ++ f.heritage) f.members

def lines (f : ClassFile) : Lines :=
  ["<?php", "", "declare(strict_types=1);", "", "namespace " ++ f.declaredNamespace ++ ";", ""] ++
    f.preamble ++ f.declaration

def text (f : ClassFile) : String := "\n".intercalate f.lines

end ClassFile

end OpenApiClient.Php
