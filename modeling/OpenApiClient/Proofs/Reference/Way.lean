import OpenApiClient.Proofs.Index.Walk
import OpenApiClient.Proofs.Distinct
import OpenApiClient.Proofs.Position
import OpenApiClient.Proofs.Reference.Step

/-!
The ways to the places that the walk visits. Such a way leads to the schema that is visited there, and
names what is on it.
-/

namespace OpenApiClient

open Pointer

namespace Node

def isList : Node → Bool
  | .schemaList _ | .parameterList _ => true
  | _ => false

-- A position in a list on the way is too large to be read.
inductive Overruns : Node → List String → Prop
  | here {node i rest} : node.isList → maxPosition < i → Overruns node (toString i :: rest)
  | later {node segment next rest} : node.step? segment = some next → Overruns next rest →
    Overruns node (segment :: rest)

-- The way leads to the target, unless a position in it is too large,
def Arrives (start : Node) (way : List String) (target : Node) : Prop :=
  start.walk way = .ok target ∨ start.Overruns way

-- so that it can only lead to the target.
def Reaches (start : Node) (way : List String) (target : Node) : Prop :=
  ∀ node, start.walk way = .ok node → node = target

end Node

namespace Node

@[simp] theorem walk_nil_eq_ok {start node : Node} : start.walk [] = .ok node ↔ start = node := by
  simp [walk]

@[simp] theorem walk_cons_eq_ok {start node : Node} {segment : String} {rest : List String} :
    start.walk (segment :: rest) = .ok node ↔
      ∃ next, start.step? segment = some next ∧ next.walk rest = .ok node := by
  rw [walk]
  cases start.step? segment <;> simp

theorem ofRefOr_eq_schema {place : SchemaRef} {s : Schema} :
    ofRefOr .schema place = .schema s ↔ place = .inline s := by
  cases place <;> simp [ofRefOr]

theorem walk_append (start : Node) (a b : List String) :
    start.walk (a ++ b) = start.walk a >>= (·.walk b) := by
  induction a generalizing start with
  | nil => rfl
  | cons segment a ih =>
    rw [List.cons_append, walk, walk]
    cases start.step? segment
    case none => rfl
    case some next => exact ih next

theorem walk_append_of {start next : Node} {a b : List String} (h : start.walk a = .ok next) :
    start.walk (a ++ b) = next.walk b := by
  rw [walk_append, h]
  rfl

theorem step?_of_large {node : Node} {i : Nat} (list : node.isList) (large : maxPosition < i) :
    node.step? (toString i) = none := by
  have unread : position? (toString i) = none := by
    rw [position?_toString, if_neg (Nat.not_le.mpr large)]
  cases node <;> simp only [isList, Bool.false_eq_true] at list
  case schemaList | parameterList => simp only [step?, item?, unread, Option.bind_eq_bind, Option.bind_none, Option.map_none]

namespace Overruns

variable {start next node : Node} {a b : List String}

theorem walk_ne_ok (h : start.Overruns a) : start.walk a ≠ .ok node := by
  induction h with
  | here list large =>
    rw [ne_eq, walk_cons_eq_ok, step?_of_large list large]
    rintro ⟨_, ⟨⟩, _⟩
  | later step _ ih => simpa [step] using ih

theorem append (h : start.Overruns a) (b : List String) : start.Overruns (a ++ b) := by
  induction h with
  | here list large => exact .here list large
  | later step _ ih => exact .later step ih

theorem after (h : start.walk a = .ok next) (hb : next.Overruns b) : start.Overruns (a ++ b) := by
  induction a generalizing start with
  | nil => exact walk_nil_eq_ok.mp h ▸ hb
  | cons segment a ih =>
    obtain ⟨_, step, rest⟩ := walk_cons_eq_ok.mp h
    exact .later step (ih rest)

end Overruns

namespace Arrives

variable {n n' n'' : Node} {way way' : List String} {segment : String}

theorem reaches (h : n.Arrives way n') : n.Reaches way n' := by
  intro node hw
  rcases h with h | overruns
  · exact Except.ok.inj (hw.symm.trans h)
  · exact absurd hw overruns.walk_ne_ok

theorem of_walk (h : n.walk way = .ok n') : n.Arrives way n' :=
  .inl h

theorem append (h : n.Arrives way n') (h' : n'.Arrives way' n'') : n.Arrives (way ++ way') n'' := by
  rcases h with hw | overruns
  · exact h'.imp (walk_append_of hw).trans (.after hw)
  · exact .inr (overruns.append way')

theorem cons (h : n.step? segment = some n') (h' : n'.Arrives way n'') : n.Arrives (segment :: way) n'' :=
  h'.imp (fun hw => walk_cons_eq_ok.mpr ⟨n', h, hw⟩) (.later h)

theorem single (h : n.step? segment = some n') : n.Arrives [segment] n' :=
  cons h (.of_walk rfl)

-- A position in a list leads to the item there.
theorem item {α : Type} {items : List α} {i : Nat} {a : α} (list : n.isList) (node : α → Node)
    (hs : ∀ segment, n.step? segment = (item? items segment).map node) (ha : items[i]? = some a) :
    n.Arrives [toString i] (node a) := by
  by_cases small : i ≤ maxPosition
  case pos =>
    refine single ?_
    rw [hs, item?, position?_toString, if_pos small]
    simp [ha]
  case neg => exact .inr (.here list (Nat.lt_of_not_le small))

end Arrives

end Node

namespace Schema

variable {s c m : Schema} {role : Role} {i : Nat}

theorem Has.arrives (hd : s.Distinct) (h : s.Has role (.inline c)) :
    (Node.schema s).Arrives role.segments (.schema c) := by
  cases h with
  | property h =>
    apply Node.Arrives.cons Node.step?_schema_properties
    exact .single <| by simp [Entries.get?_of_mem hd.properties h]
  | additional h => exact .single <| by simp [additionalSchema, h]
  | item h => exact .single <| by simp [h]
  | oneOf h =>
    apply Node.Arrives.cons Node.step?_schema_oneOf
    exact .item rfl (Node.ofRefOr .schema) (fun _ => Node.step?_schemaList) h
  | anyOf h =>
    apply Node.Arrives.cons Node.step?_schema_anyOf
    exact .item rfl (Node.ofRefOr .schema) (fun _ => Node.step?_schemaList) h

theorem Has.reaches (hd : s.Distinct) (h : s.Has role (.inline c)) :
    (Node.schema s).Reaches role.segments (.schema c) :=
  (h.arrives hd).reaches

theorem Merges.arrives (h : s.Merges i m) :
    (Node.schema s).Arrives ["allOf", toString i] (.schema m) := by
  apply Node.Arrives.cons Node.step?_schema_allOf
  exact .item rfl (Node.ofRefOr .schema) (fun _ => Node.step?_schemaList) h

theorem Merges.reaches (h : s.Merges i m) :
    (Node.schema s).Reaches ["allOf", toString i] (.schema m) :=
  h.arrives.reaches

namespace Below

variable {name name' : String} {rest : List String} {s' : Schema}

theorem arrives (h : s.Below name rest name' s') (hd : s.Distinct) :
    (Node.schema s).Arrives rest (.schema s') := by
  induction h with
  | part h => exact h.arrives hd
  | deeper h _ ih => exact (h.arrives hd).append <| ih (hd.part h)
  | merged h _ ih => exact h.arrives.append <| ih (hd.member h)

theorem distinct (h : s.Below name rest name' s') (hd : s.Distinct) : s'.Distinct := by
  induction h with
  | part h => exact hd.part h
  | deeper h _ ih => exact ih (hd.part h)
  | merged h _ ih => exact ih (hd.member h)

theorem ne_nil (h : s.Below name rest name' s') : rest ≠ [] := by
  have segments_ne_nil (role : Role) : role.segments ≠ [] := by cases role <;> nofun
  cases h <;> simp [segments_ne_nil]

end Below

end Schema

-- The way to what has a role is not the beginning of another one, nor of one that goes into a member.
theorem Role.segments_append_inj {r r' : Role} {a b : List String}
    (h : r.segments ++ a = r'.segments ++ b) : r = r' ∧ a = b := by
  cases r <;> cases r' <;> simp [segments] at h <;> grind

theorem Role.segments_append_ne {r : Role} {a b : List String} :
    r.segments ++ a ≠ "allOf" :: b := by
  cases r <;> simp [segments]

-- What something is called can be told from the way to it, whatever is written on this way.
theorem Schema.Below.name_eq {s t s' t' : Schema} {name name₁ name₂ : String} {way : List String}
    (hs : s.Below name way name₁ s') (ht : t.Below name way name₂ t') : name₁ = name₂ := by
  induction hs generalizing t with
  | @part name _ role _ _ =>
    generalize hw : role.segments = way at ht
    cases ht with
    | part => cases (Role.segments_append_inj (a := []) (b := []) (by simpa using hw)).1; rfl
    | deeper _ below =>
      have := Role.segments_append_inj (a := []) (by simpa using hw)
      exact absurd this.2.symm below.ne_nil
    | merged => exact absurd (by simpa using hw) (Role.segments_append_ne (a := []))
  | @deeper _ _ role _ rest _ _ _ below ih =>
    generalize hw : role.segments ++ rest = way at ht
    cases ht with
    | part => exact absurd (Role.segments_append_inj (b := []) (by simpa using hw)).2 below.ne_nil
    | deeper _ ht =>
      obtain ⟨rfl, rfl⟩ := Role.segments_append_inj hw
      exact ih ht
    | merged => exact absurd hw Role.segments_append_ne
  | @merged _ _ i _ rest _ _ _ below ih =>
    generalize hw : "allOf" :: toString i :: rest = way at ht
    cases ht with
    | part => exact absurd (by simpa using hw.symm) (Role.segments_append_ne (a := []))
    | deeper _ ht => exact absurd hw.symm Role.segments_append_ne
    | merged _ ht =>
      obtain ⟨-, rfl⟩ : _ ∧ rest = _ := by simpa using hw
      exact ih ht

-- A slash in a segment may be written with a percent sign.
theorem PetStore.segments_eq : Pointer.segments "#/paths/%2Fpets/parameters/0/schema" =
    .ok ["paths", "/pets", "parameters", "0", "schema"] := by
  decide +kernel

end OpenApiClient
